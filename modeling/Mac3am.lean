import Mac3am.AlbumArtProofs
import Mac3am.FeatureSymmetryProofs
import Mac3am.LandmarkFormatProofs
import Mac3am.LoginLaunchesProofs
import Mac3am.PlaylistProofs
import Mac3am.RealizationProofs
import Mac3am.SkipCreditProofs
import Mac3am.SkipOrbitProofs
import Mac3am.SkipSessionsProofs
import Mac3am.SkipStatisticsProofs

import Mac3am.SkipStoreProofs

/-! # The player panel

    The part of `PlayViewController` that plays music: the playlist and its
    index, the table's selection, the global `player`, the play button, the
    progress indicator with its one-second ticks, the album art, and the skip
    statistics behind the skip button.

    The audio player, the table and the main queue belong to AppKit and
    AVFoundation.  What the code relies on is built in or is a field of
    `Environment`: a fresh player does not play; play, pause and stop do what
    they say; the value of an artwork item is data; the table calls
    `tableViewSelectionDidChange` inside `selectRowIndexes`, exactly when the
    selection changes, with `selectedRow` already updated.

    `loadPlayMusic` selects the current row, so it calls the selection
    handler, which calls `loadPlayMusic` again.  Nothing in the two functions
    bounds that recursion; the model gives it a call stack (`depth`) to run out
    of. -/

namespace Mac3amPanel

open Swift TrapRun Mac3amStore

abbrev TimeInterval := Rat

abbrev Data := List UInt8

/-- A file of the playlist directory. -/
structure URL where
  directory : String
  lastPathComponent : String
deriving DecidableEq, Repr

/-- `NSImage(named:)` or `NSImage(data:)` -/
inductive NSImage where
  | named (name : String)
  | data (bytes : Data)
deriving DecidableEq, Repr

/-- A metadata item of an asset; `value` is `none` where it is no `Data`. -/
structure AVMetadataItem where
  commonKey : Option String
  value : Option Data

/-- An audio player object. -/
structure AVAudioPlayer where
  url : URL
  duration : TimeInterval
  isPlaying : Bool
  currentTime : TimeInterval
deriving DecidableEq, Repr

/-- What the panel finds outside: which initialisations of an audio player
    succeed, by their number in the life of the process and their file, and
    what the files hold. -/
structure Environment where
  dataPath : String
  initSucceeds : Nat → URL → Bool
  duration : URL → TimeInterval
  metadata : URL → List AVMetadataItem
  decodes : Data → Bool
  stack : Nat
  /-- the call stack holds a handler inside a handler -/
  stack_holds : 2 ≤ stack
  /-- assumed of AVFoundation: artwork is delivered as data, so that the forced
      cast of `showArtwork` never traps -/
  artwork_data : ∀ url, ∀ item ∈ metadata url, item.commonKey = some "artwork" →
    ∃ bytes, item.value = some bytes

/-- `AVAudioPlayer(contentsOf: url, fileTypeHint:)`, where it succeeds. -/
def Environment.audioPlayer (env : Environment) (url : URL) : AVAudioPlayer where
  url := url
  duration := env.duration url
  isPlaying := false
  currentTime := 0

/-- A file of the music directory. -/
def Environment.file (env : Environment) (name : String) : URL where
  directory := env.dataPath
  lastPathComponent := name

/-- Files of three minutes without artwork, of which the initialisations given
    succeed. -/
def Environment.plain (initSucceeds : Nat → URL → Bool) : Environment where
  dataPath := "Mac3am Music"
  initSucceeds := initSucceeds
  duration := fun _ => 180
  metadata := fun _ => []
  decodes := fun _ => false
  stack := 2
  stack_holds := Nat.le_refl 2
  artwork_data := fun _ _ hitem => nomatch hitem

/-- The state of the panel.  `players` holds every player object ever created,
    in order; `player` and `currentMusicPlayer` refer to them by position.
    `loads` counts the initialisations of players, failed ones included. -/
structure Panel where
  musicList : List String
  currentMusicIndex : Int
  players : List AVAudioPlayer
  player : Option Nat
  currentMusicPlayer : Option Nat
  selectedRow : Int
  playBtnImage : NSImage
  playBtnEnabled : Bool
  isIndeterminate : Bool
  maxValue : TimeInterval
  doubleValue : TimeInterval
  progressBlocks : Nat
  postedTicks : Nat
  albumArt : NSImage
  loads : Nat
  context : ManagedObjectContext
  captures : Nat
deriving DecidableEq, Repr

/-- The state after `viewDidLoad`, for the contents of the music directory
    (`[]` where listing it throws) and of the store.  The values of the views
    are those of the storyboard. -/
def viewDidLoad (contents : List String) (records : List Entity) : Panel where
  musicList := contents
  currentMusicIndex := 0
  players := []
  player := none
  currentMusicPlayer := none
  selectedRow := -1
  playBtnImage := .named "play-2"
  playBtnEnabled := false
  isIndeterminate := true
  maxValue := 100
  doubleValue := 0
  progressBlocks := 0
  postedTicks := 0
  albumArt := .named "music"
  loads := 0
  context := .opened records
  captures := 0

namespace Panel

/-- `musicList[currentMusicIndex]` -/
def currentSong (s : Panel) : Option String := subscript s.musicList s.currentMusicIndex

/-- `dataPath.appendingPathComponent(musicList[currentMusicIndex])` -/
def currentURL (env : Environment) (s : Panel) : Option URL :=
  s.currentSong.map fun name => { directory := env.dataPath, lastPathComponent := name }

/-- The object the global `player` refers to. -/
def globalPlayer (s : Panel) : Option AVAudioPlayer :=
  s.player.bind fun k => s.players[k]?

/-- Change player object `k`. -/
def onPlayer (k : Nat) (f : AVAudioPlayer → AVAudioPlayer) (s : Panel) : Panel :=
  { s with players := s.players.modify k f }

/-- `player?.stop()` -/
@[simps] def stop (s : Panel) : Panel :=
  { s with
    players :=
      match s.player with
      | none => s.players
      | some k => s.players.modify k fun p => { p with isPlaying := false } }

/-- One more initialisation of a player was tried. -/
@[simps] def tried (s : Panel) : Panel := { s with loads := s.loads + 1 }

/-- `player = newPlayer; currentMusicPlayer = player; player.play()`, and the
    pause image on the button. -/
@[simps] def start (newPlayer : AVAudioPlayer) (s : Panel) : Panel :=
  { s with
    players := s.players ++ [{ newPlayer with isPlaying := true }]
    player := some s.players.length
    currentMusicPlayer := some s.players.length
    playBtnImage := .named "pause-2" }

/-- The progress indicator of a loaded song, and the block that keeps asking
    for its position.  The queue is serial and the block never ends, so only
    the first one ever runs. -/
@[simps] def startIndicator (duration : TimeInterval) (s : Panel) : Panel :=
  { s with
    isIndeterminate := false
    maxValue := duration
    progressBlocks := s.progressBlocks + 1 }

/-- Starting a still image capture, where there is a camera connection. -/
def captureImage (connection : Bool) (s : Panel) : Panel :=
  if connection then { s with captures := s.captures + 1 } else s

end Panel

/-- The loop over the metadata of a loaded song. -/
def showArtwork (env : Environment) : List AVMetadataItem → Panel → Outcome Trap Panel
  | [], s => .ok s
  | item :: rest, s =>
      if item.commonKey = some "artwork" then
        match item.value with
        | none => .trap .castFailed s
        | some bytes =>
            if env.decodes bytes then showArtwork env rest { s with albumArt := .data bytes }
            else showArtwork env rest s
      else showArtwork env rest s

/-- The table's selection becomes `row`. -/
def selectRow (didChange : Panel → Outcome Trap Panel) (row : Int) (s : Panel) :
    Outcome Trap Panel :=
  if s.selectedRow = row then .ok s else didChange { s with selectedRow := row }

/-- The selection handler, over the loader it calls. -/
def tableViewSelectionDidChange (env : Environment) (load : URL → Panel → Outcome Trap Panel)
    (s : Panel) : Outcome Trap Panel :=
  let s := s.stop
  let s := { s with currentMusicIndex := s.selectedRow }
  match s.currentURL env with
  | none => .trap .indexOutOfRange s
  | some url => load url { s with playBtnEnabled := true }

/-- `load_Play_Music(url:)`, on a call stack of `depth` frames.  An
    initialisation that throws is only printed. -/
def loadPlayMusic (env : Environment) : Nat → URL → Panel → Outcome Trap Panel
  | 0, _, s => .trap .stackOverflow s
  | depth + 1, url, s =>
      if env.initSucceeds s.loads url then
        let newPlayer := env.audioPlayer url
        let started := s.tried.start newPlayer
        let selected := selectRow (tableViewSelectionDidChange env (loadPlayMusic env depth))
          started.currentMusicIndex started
        selected.andThen fun s =>
          showArtwork env (env.metadata url) (s.startIndicator newPlayer.duration)
      else .ok s.tried

/-- Load the song the current index names. -/
def loadCurrent (env : Environment) (s : Panel) : Outcome Trap Panel :=
  match s.currentURL env with
  | none => .trap .indexOutOfRange s
  | some url => loadPlayMusic env env.stack url s

/-! ## The handlers -/

def playBtnTouched (s : Panel) : Panel :=
  match s.player with
  | none => s
  | some k =>
      match s.players[k]? with
      | none => s
      | some p =>
          if p.isPlaying then
            { s.onPlayer k fun p => { p with isPlaying := false } with
              playBtnImage := .named "play-2" }
          else
            { s.onPlayer k fun p => { p with isPlaying := true } with
              playBtnImage := .named "pause-2" }

def previousBtnTouched (env : Environment) (s : Panel) : Outcome Trap Panel :=
  let s := s.stop
  let s := { s with currentMusicIndex := s.currentMusicIndex - 1 }
  let s := if s.currentMusicIndex < 0 then
      { s with currentMusicIndex := s.musicList.length - 1 } else s
  loadCurrent env s

/-- What the surroundings do during one press of the skip button. -/
structure SkipPress where
  order : Option FetchOrder
  saved : Bool
  connection : Bool

/-- The store update of a skip, on the whole panel. -/
def Panel.recordSkip (press : SkipPress) (s : Panel) : Outcome Trap Panel :=
  (Mac3amStore.recordSkip s.musicList s.currentMusicIndex press.order press.saved s.context).map
    fun c => { s with context := c }

/-- The end of `skipBtnTouched`, under its comment "next Music". -/
def nextMusic (env : Environment) (s : Panel) : Outcome Trap Panel :=
  let s := { s with currentMusicIndex := s.currentMusicIndex + 2 }
  let s := if s.currentMusicIndex = s.musicList.length then
      { s with currentMusicIndex := 0 } else s
  loadCurrent env s

def skipBtnTouched (env : Environment) (press : SkipPress) (s : Panel) : Outcome Trap Panel :=
  (s.stop.recordSkip press).andThen fun s => nextMusic env (s.captureImage press.connection)

/-- The key monitor that `viewDidLoad` installs. -/
def keyMonitor (env : Environment) (press : SkipPress) (s : Panel) : Outcome Trap Panel :=
  skipBtnTouched env press s

/-- The block the progress loop posts to the main queue. -/
def showProgress (s : Panel) : Outcome Trap Panel :=
  match s.currentMusicPlayer.bind fun k => s.players[k]? with
  | none => .trap .unwrappedNil s
  | some p => .ok { s with doubleValue := p.currentTime }

/-! ## Events -/

/-- What happens to the panel, one at a time on the main thread. -/
inductive Event where
  /-- the user changes the table's selection; `-1` is no row -/
  | selection (row : Int)
  | previous
  | skip (press : SkipPress)
  | key (press : SkipPress)
  | play
  /-- player object `k` reaches the end of its track -/
  | trackEnds (k : Nat)
  /-- player object `k` plays on to `time` -/
  | trackAdvances (k : Nat) (time : TimeInterval)
  /-- the progress loop wakes up and posts its block -/
  | progressWakes
  /-- the main queue runs a posted block -/
  | tick

def step (env : Environment) (s : Panel) : Event → Outcome Trap Panel
  | .selection row =>
      if -1 ≤ row ∧ row < s.musicList.length then
        selectRow (tableViewSelectionDidChange env (loadPlayMusic env env.stack)) row s
      else .ok s   -- the table has no such row
  | .previous => previousBtnTouched env s
  | .skip press => skipBtnTouched env press s
  | .key press => keyMonitor env press s
  | .play => .ok (playBtnTouched s)
  | .trackEnds k =>
      .ok (s.onPlayer k fun p =>
        if p.isPlaying then { p with isPlaying := false, currentTime := 0 } else p)
  | .trackAdvances k time =>
      .ok (s.onPlayer k fun p => if p.isPlaying then { p with currentTime := time } else p)
  | .progressWakes =>
      if s.progressBlocks = 0 then .ok s else .ok { s with postedTicks := s.postedTicks + 1 }
  | .tick =>
      if s.postedTicks = 0 then .ok s
      else showProgress { s with postedTicks := s.postedTicks - 1 }

end Mac3amPanel

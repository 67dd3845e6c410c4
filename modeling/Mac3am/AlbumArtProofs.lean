import Mac3am.PlainLoaderProofs

/-! # The album art

    A load writes the album art only inside its loop over the metadata, and
    nothing ever resets it.

    * `run_albumArt` — after any run the view shows the last artwork of the last
      loaded song that has one, and the placeholder before the first;
    * `album_art_history_iff` — so two runs that end with the same song show the
      same image exactly where that song brings its own artwork, or both came
      with the same one. -/

namespace Mac3amPanel

open Swift TrapRun Mac3amStore

variable {env : Environment} {s s' : Panel} {e : Event} {url : URL}

/-- The file an event loads, where its initialisation succeeds. -/
def fileLoaded (env : Environment) (s : Panel) (e : Event) : Option URL := do
  let m ← entry s e
  let url ← m.currentURL env
  if env.initSucceeds m.loads url then some url else none

/-- The last artwork the files of a list bring. -/
def lastArtwork (env : Environment) (urls : List URL) : Option Data :=
  urls.reverse.findSome? fun url => artwork env (env.metadata url)

/-- What the view shows after these files, and the placeholder before. -/
def shownArtwork (env : Environment) (urls : List URL) : NSImage :=
  (lastArtwork env urls).elim (.named "music") .data

/-- One more file: its artwork, if it has any. -/
theorem lastArtwork_snoc (env : Environment) (urls : List URL) (url : URL) :
    lastArtwork env (urls ++ [url])
      = (artwork env (env.metadata url)).or (lastArtwork env urls) := by
  rw [lastArtwork, List.reverse_append, List.findSome?_append, List.reverse_singleton,
    List.findSome?_singleton]
  rfl

theorem shownArtwork_snoc (env : Environment) (urls : List URL) (url : URL) :
    shownArtwork env (urls ++ [url])
      = artworkOf env (env.metadata url) (shownArtwork env urls) := by
  rw [shownArtwork, lastArtwork_snoc, artworkOf_eq]
  cases artwork env (env.metadata url) with
  | none => rfl
  | some bytes => rfl

/-- Two images are the same exactly if their artworks are. -/
theorem shownArtwork_inj {urls urls' : List URL} :
    shownArtwork env urls = shownArtwork env urls' ↔
      lastArtwork env urls = lastArtwork env urls' := by
  rw [shownArtwork, shownArtwork]
  constructor
  · intro h
    cases hleft : lastArtwork env urls with
    | none =>
        cases hright : lastArtwork env urls' with
        | none => rfl
        | some bytes' =>
            rw [hleft, hright] at h
            cases h
    | some bytes =>
        cases hright : lastArtwork env urls' with
        | none =>
            rw [hleft, hright] at h
            cases h
        | some bytes' =>
            rw [hleft, hright] at h
            cases h
            rfl
  · intro h
    rw [h]

/-! ## One load -/

/-- A load that succeeds runs the artwork loop over its file, once or twice. -/
theorem settled_albumArt (env : Environment) (url : URL) (s : Panel) :
    (settled env url s).albumArt
      = if env.initSucceeds s.loads url then artworkOf env (env.metadata url) s.albumArt
        else s.albumArt := by
  rcases settled_cases env url s with ⟨hinit, heq⟩ | ⟨hinit, -, heq⟩ | ⟨hinit, -, -, heq⟩ |
      ⟨hinit, -, -, heq⟩
  · rw [heq, hinit]
    rfl
  · rw [heq, hinit]
    rfl
  · rw [heq, hinit]
    rfl
  · -- the inner load has shown the artwork already
    rw [heq, hinit, Panel.finish_albumArt, Panel.finish_albumArt, artworkOf_idem]
    rfl

theorem fileLoaded_eq {m : Panel} (hentry : entry s e = some m)
    (hurl : m.currentURL env = some url) :
    fileLoaded env s e = if env.initSucceeds m.loads url then some url else none := by
  rw [fileLoaded, hentry, Option.bind_eq_bind, Option.bind_some, hurl]
  rfl

/-- An event that loads a file ends. -/
theorem step_of_fileLoaded (h : fileLoaded env s e = some url) :
    ∃ m, entry s e = some m ∧ step env s e = .ok (settled env url m) ∧
      env.initSucceeds m.loads url = true := by
  obtain ⟨m, hentry, h⟩ := Option.bind_eq_some_iff.mp h
  obtain ⟨url', hurl, h⟩ := Option.bind_eq_some_iff.mp h
  by_cases hinit : env.initSucceeds m.loads url' = true
  · rw [if_pos hinit] at h
    cases h
    exact ⟨m, hentry, by rw [step_of_entry hentry, loadCurrent_eq hurl], hinit⟩
  · rw [if_neg hinit] at h
    cases h

/-- **One event**: the artwork of the file it loads goes into the view. -/
theorem step_albumArt {urls : List URL} (hshown : s.albumArt = shownArtwork env urls)
    (h : step env s e = .ok s') :
    s'.albumArt = shownArtwork env (urls ++ (fileLoaded env s e).toList) := by
  rcases step_cases h with ⟨m, url, hentry, hurl, rfl⟩ | ⟨hentry, hidle⟩
  · rw [fileLoaded_eq hentry hurl, settled_albumArt, (entry_moved hentry).albumArt, hshown]
    by_cases hinit : env.initSucceeds m.loads url = true
    · rw [if_pos hinit, if_pos hinit, Option.toList_some, shownArtwork_snoc]
    · rw [if_neg hinit, if_neg hinit, Option.toList_none, List.append_nil]
  · have hnone : fileLoaded env s e = none := by
      rw [fileLoaded, hentry]
      rfl
    rw [hnone, Option.toList_none, List.append_nil, hidle.albumArt, hshown]

/-- The files loaded in a run. -/
def filesLoaded (env : Environment) (contents : List String) (records : List Entity)
    (es : List Event) : List URL :=
  observed (step env) (fileLoaded env) (viewDidLoad contents records) es

/-- **A run**: the view shows the last artwork of the files loaded in it. -/
theorem run_albumArt {contents : List String} {records : List Entity} {es : List Event}
    (h : run (step env) (viewDidLoad contents records) es = .ok s) :
    s.albumArt = shownArtwork env (filesLoaded env contents records es) := by
  have hnone : (viewDidLoad contents records).albumArt = shownArtwork env [] := rfl
  exact run_observes (f := fileLoaded env) (R := fun urls s => s.albumArt = shownArtwork env urls)
    (F := fun _ => True) (fun _ _ _ _ _ hshown hstep => step_albumArt hshown hstep)
    (fun _ _ => trivial) hnone h

/-! ## Two runs -/

/-- The same files, of which other initialisations succeed. -/
def Environment.loading (initSucceeds : Nat → URL → Bool) (env : Environment) : Environment :=
  { env with initSucceeds := initSucceeds }

/-- The image after a run that ends with a load. -/
theorem run_load_albumArt {contents : List String} {records : List Entity} {es : List Event}
    (h : run (step env) (viewDidLoad contents records) es = .ok s)
    (hload : fileLoaded env s e = some url) :
    ∃ t, step env s e = .ok t ∧
      t.albumArt = shownArtwork env (filesLoaded env contents records es ++ [url]) := by
  obtain ⟨m, -, hstep, -⟩ := step_of_fileLoaded hload
  have himage := step_albumArt (run_albumArt h) hstep
  rw [hload, Option.toList_some] at himage
  exact ⟨settled env url m, hstep, himage⟩

/-- **The album art and its history**: of two runs over one directory that end
    with a successful load of the same file, the images are the same exactly if
    the file has an artwork that decodes, or the two runs had loaded the same
    artwork last before. -/
theorem album_art_history_iff (env : Environment) (initSucceeds : Nat → URL → Bool)
    (contents : List String) (records records' : List Entity) {es es' : List Event}
    {s s' : Panel} {e e' : Event} {url : URL}
    (hrun : run (step env) (viewDidLoad contents records) es = .ok s)
    (hrun' : run (step (env.loading initSucceeds)) (viewDidLoad contents records') es' = .ok s')
    (hload : fileLoaded env s e = some url)
    (hload' : fileLoaded (env.loading initSucceeds) s' e' = some url) :
    ∃ t t', step env s e = .ok t ∧ step (env.loading initSucceeds) s' e' = .ok t' ∧
      (t.albumArt = t'.albumArt ↔
        (artwork env (env.metadata url)).isSome = true ∨
          lastArtwork env (filesLoaded env contents records es)
            = lastArtwork env (filesLoaded (env.loading initSucceeds) contents records' es')) := by
  obtain ⟨t, hstep, himage⟩ := run_load_albumArt hrun hload
  obtain ⟨t', hstep', himage'⟩ := run_load_albumArt hrun' hload'
  refine ⟨t, t', hstep, hstep', ?_⟩
  -- the second run has the same files, with the same artwork in them
  have hsame : ∀ urls, shownArtwork (env.loading initSucceeds) urls = shownArtwork env urls :=
    fun _ => rfl
  rw [himage, himage', hsame, shownArtwork_inj, lastArtwork_snoc, lastArtwork_snoc]
  cases artwork env (env.metadata url) with
  | none =>
      rw [Option.none_or, Option.none_or]
      constructor
      · intro h; exact Or.inr h
      · rintro (h | h)
        · cases h
        · exact h
  | some bytes =>
      rw [Option.some_or, Option.some_or]
      exact ⟨fun _ => Or.inl rfl, fun _ => rfl⟩

/-- A directory in which one song has artwork. -/
def oneCover : Environment :=
  { Environment.plain fun _ _ => true with
    metadata := fun url =>
      bif url.lastPathComponent == "covered" then [⟨some "artwork", some [1]⟩] else []
    decodes := fun _ => true
    artwork_data := by
      intro url item hitem _
      cases hcover : url.lastPathComponent == "covered" with
      | true =>
          rw [hcover, cond_true] at hitem
          rw [List.mem_singleton.mp hitem]
          exact ⟨[1], rfl⟩
      | false =>
          rw [hcover, cond_false] at hitem
          cases hitem }

/-- A song with artwork shows its own, whatever was loaded before. -/
theorem album_art_history_iff_covered :
    ∃ s t t', run (step oneCover) (viewDidLoad ["covered", "plain"] []) [.selection 1] = .ok s ∧
      step oneCover s (.selection 0) = .ok t ∧
      step (oneCover.loading fun _ _ => true) (viewDidLoad ["covered", "plain"] [])
        (.selection 0) = .ok t' ∧
      t.albumArt = t'.albumArt := by
  have hrun : ∃ s, run (step oneCover) (viewDidLoad ["covered", "plain"] []) [.selection 1]
      = .ok s ∧ fileLoaded oneCover s (.selection 0) = some ⟨"Mac3am Music", "covered"⟩ :=
    ⟨_, rfl, rfl⟩
  have hrun' : run (step (oneCover.loading fun _ _ => true)) (viewDidLoad ["covered", "plain"] [])
      [] = .ok (viewDidLoad ["covered", "plain"] []) := rfl
  have hload' : fileLoaded (oneCover.loading fun _ _ => true)
      (viewDidLoad ["covered", "plain"] []) (.selection 0)
        = some ⟨"Mac3am Music", "covered"⟩ := rfl
  obtain ⟨s, hrun, hload⟩ := hrun
  obtain ⟨t, t', hstep, hstep', hiff⟩ := album_art_history_iff oneCover (fun _ _ => true)
    ["covered", "plain"] [] [] hrun hrun' hload hload'
  exact ⟨s, t, t', hrun, hstep, hstep', hiff.mpr (Or.inl rfl)⟩

/-- A song without artwork shows the artwork of the song before it. -/
theorem plain_song_shows_earlier_artwork :
    ∃ s t t', run (step oneCover) (viewDidLoad ["covered", "plain"] []) [.selection 0] = .ok s ∧
      fileLoaded oneCover s (.selection 1) = some ⟨"Mac3am Music", "plain"⟩ ∧
      fileLoaded oneCover (viewDidLoad ["covered", "plain"] []) (.selection 1)
        = some ⟨"Mac3am Music", "plain"⟩ ∧
      step oneCover s (.selection 1) = .ok t ∧
      step oneCover (viewDidLoad ["covered", "plain"] []) (.selection 1) = .ok t' ∧
      t.albumArt = .data [1] ∧ t'.albumArt = .named "music" :=
  ⟨_, _, _, rfl, rfl, rfl, rfl, rfl, rfl, rfl⟩

end Mac3amPanel

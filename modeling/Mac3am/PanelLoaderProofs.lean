import Mac3am.PlayerPanelProofs

/-! # What a load and an event do

    `plainLoad` is the loader without its table: no selection, so no second
    call.  The re-entrant loader is one plain load when the row was selected
    already, and otherwise a plain load inside the unfinished first one
    (`loadPlayMusic_eq`, `settled_cases`).

    An event that loads a song first moves to it: `entry` is the state in which
    it then calls the loader, and `step_of_entry` and `step_cases` say that the
    event does this and nothing else. -/

namespace Mac3amPanel

open Swift TrapRun Mac3amStore

variable {env : Environment}

/-- The image one metadata item leaves in the view. -/
def artworkItem (env : Environment) (item : AVMetadataItem) (image : NSImage) : NSImage :=
  if item.commonKey = some "artwork" then
    match item.value with
    | none => image
    | some bytes => if env.decodes bytes then .data bytes else image
  else image

/-- The image the artwork loop leaves in the view. -/
def artworkOf (env : Environment) : List AVMetadataItem → NSImage → NSImage
  | [], image => image
  | item :: rest, image => artworkOf env rest (artworkItem env item image)

/-- The artwork of a metadata item that decodes. -/
def decodedArtwork (env : Environment) (item : AVMetadataItem) : Option Data :=
  if item.commonKey = some "artwork" then item.value.filter env.decodes else none

/-- The last artwork of the metadata that decodes. -/
def artwork (env : Environment) (items : List AVMetadataItem) : Option Data :=
  items.reverse.findSome? (decodedArtwork env)

theorem artworkItem_eq (env : Environment) (item : AVMetadataItem) (image : NSImage) :
    artworkItem env item image = (decodedArtwork env item).elim image .data := by
  rw [artworkItem, decodedArtwork]
  by_cases hkey : item.commonKey = some "artwork"
  · rw [if_pos hkey, if_pos hkey]
    cases item.value with
    | none => rfl
    | some bytes =>
        rw [Option.filter_some]
        dsimp only
        cases env.decodes bytes with
        | false => rfl
        | true => rfl
  · rw [if_neg hkey, if_neg hkey]
    rfl

/-- **The last one wins**: the loop shows the last artwork that decodes, and
    without one it leaves the image that was there. -/
theorem artworkOf_eq (env : Environment) (items : List AVMetadataItem) (image : NSImage) :
    artworkOf env items image = (artwork env items).elim image .data := by
  induction items generalizing image with
  | nil => rfl
  | cons item rest ih =>
      have hcons : artwork env (item :: rest)
          = (artwork env rest).or (decodedArtwork env item) := by
        rw [artwork, List.reverse_cons, List.findSome?_append, List.findSome?_singleton]
        rfl
      rw [artworkOf, ih, artworkItem_eq, hcons]
      cases artwork env rest with
      | none => rfl
      | some bytes => rfl

/-- Running the artwork loop a second time changes nothing. -/
theorem artworkOf_idem (env : Environment) (items : List AVMetadataItem) (image : NSImage) :
    artworkOf env items (artworkOf env items image) = artworkOf env items image := by
  rw [artworkOf_eq, artworkOf_eq]
  cases artwork env items with
  | none => rfl
  | some bytes => rfl

theorem showArtwork_eq {items : List AVMetadataItem}
    (hdata : ∀ item ∈ items, item.commonKey = some "artwork" → ∃ bytes, item.value = some bytes)
    (s : Panel) :
    showArtwork env items s = .ok { s with albumArt := artworkOf env items s.albumArt } := by
  -- the cast of an artwork item never fails, so the loop runs to its end
  induction items generalizing s with
  | nil => rfl
  | cons item rest ih =>
      have hrest : ∀ i ∈ rest, i.commonKey = some "artwork" → ∃ bytes, i.value = some bytes :=
        fun i hi => hdata i (List.mem_cons_of_mem _ hi)
      rw [showArtwork, artworkOf]
      by_cases hkey : item.commonKey = some "artwork"
      · obtain ⟨bytes, hbytes⟩ := hdata item List.mem_cons_self hkey
        by_cases hdec : env.decodes bytes = true
        · have himage : artworkItem env item s.albumArt = .data bytes := by
            simp [artworkItem, hkey, hbytes, hdec]
          rw [himage, if_pos hkey, hbytes]
          exact (if_pos hdec).trans (ih hrest _)
        · have himage : artworkItem env item s.albumArt = s.albumArt := by
            simp [artworkItem, hkey, hbytes, hdec]
          rw [himage, if_pos hkey, hbytes]
          exact (if_neg hdec).trans (ih hrest s)
      · have himage : artworkItem env item s.albumArt = s.albumArt := if_neg hkey
        rw [himage, if_neg hkey]
        exact ih hrest s

/-- The end of a successful load: the indicator and the artwork. -/
@[simps] def Panel.finish (env : Environment) (url : URL) (s : Panel) : Panel :=
  { s.startIndicator (env.duration url) with
    albumArt := artworkOf env (env.metadata url) s.albumArt }

/-- A load without the table. -/
def plainLoad (env : Environment) (url : URL) (s : Panel) : Panel :=
  if env.initSucceeds s.loads url then (s.tried.start (env.audioPlayer url)).finish env url
  else s.tried

/-- The state in which the selection handler calls the loader a second time. -/
@[simps] def Panel.reentered (env : Environment) (url : URL) (s : Panel) : Panel :=
  { (s.tried.start (env.audioPlayer url)).stop with
    selectedRow := s.currentMusicIndex
    playBtnEnabled := true }

/-- The selection handler loads the song of the selected row. -/
theorem tableViewSelectionDidChange_some {load : URL → Panel → Outcome Trap Panel} {url : URL}
    {s : Panel}
    (hurl : ({ s.stop with currentMusicIndex := s.selectedRow } : Panel).currentURL env
      = some url) :
    tableViewSelectionDidChange env load s
      = load url { s.stop with currentMusicIndex := s.selectedRow, playBtnEnabled := true } := by
  dsimp only [tableViewSelectionDidChange]
  split
  case h_1 hnone => exact absurd (hurl.symm.trans hnone) (Option.some_ne_none url)
  case h_2 url' hsome =>
    obtain rfl := Option.some.inj (hurl.symm.trans hsome)
    rfl

/-- Without a song on the selected row it traps. -/
theorem tableViewSelectionDidChange_none {load : URL → Panel → Outcome Trap Panel} {s : Panel}
    (hurl : ({ s.stop with currentMusicIndex := s.selectedRow } : Panel).currentURL env = none) :
    tableViewSelectionDidChange env load s
      = .trap .indexOutOfRange { s.stop with currentMusicIndex := s.selectedRow } := by
  dsimp only [tableViewSelectionDidChange]
  split
  case h_1 => rfl
  case h_2 url' hsome => exact absurd (hsome.symm.trans hurl) (Option.some_ne_none url')

theorem loadPlayMusic_failed {url : URL} {s : Panel} {depth : Nat}
    (hinit : env.initSucceeds s.loads url = false) :
    loadPlayMusic env (depth + 1) url s = .ok (plainLoad env url s) := by
  rw [loadPlayMusic, plainLoad, hinit]
  rfl

/-- On the selected row the loader is the plain one. -/
theorem loadPlayMusic_selected {url : URL} {s : Panel} {depth : Nat}
    (hrow : s.selectedRow = s.currentMusicIndex) :
    loadPlayMusic env (depth + 1) url s = .ok (plainLoad env url s) := by
  cases hinit : env.initSucceeds s.loads url with
  | false => exact loadPlayMusic_failed hinit
  | true =>
      rw [loadPlayMusic, plainLoad, hinit, if_pos rfl, if_pos rfl]
      show (selectRow _ s.currentMusicIndex (s.tried.start (env.audioPlayer url))).andThen _ = _
      rw [selectRow, if_pos (show (s.tried.start (env.audioPlayer url)).selectedRow
        = s.currentMusicIndex from hrow), Outcome.ok_andThen,
        showArtwork_eq (env.artwork_data url)]
      rfl

/-- On another row the loader runs a second time before it ends, on the row it
    has selected by then. -/
theorem loadPlayMusic_reentered {url : URL} {s : Panel} {depth : Nat}
    (hurl : s.currentURL env = some url) (hinit : env.initSucceeds s.loads url = true)
    (hrow : s.selectedRow ≠ s.currentMusicIndex) :
    loadPlayMusic env (depth + 2) url s
      = .ok ((plainLoad env url (s.reentered env url)).finish env url) := by
  have hinner : tableViewSelectionDidChange env (loadPlayMusic env (depth + 1))
      { s.tried.start (env.audioPlayer url) with selectedRow := s.currentMusicIndex }
      = .ok (plainLoad env url (s.reentered env url)) :=
    (tableViewSelectionDidChange_some hurl).trans (loadPlayMusic_selected rfl)
  rw [loadPlayMusic, hinit, if_pos rfl]
  show (selectRow _ s.currentMusicIndex (s.tried.start (env.audioPlayer url))).andThen _ = _
  rw [selectRow, if_neg (show (s.tried.start (env.audioPlayer url)).selectedRow
      ≠ s.currentMusicIndex from hrow)]
  show (tableViewSelectionDidChange env (loadPlayMusic env (depth + 1))
    { s.tried.start (env.audioPlayer url) with selectedRow := s.currentMusicIndex }).andThen _ = _
  rw [hinner, Outcome.ok_andThen, showArtwork_eq (env.artwork_data url)]
  rfl

/-- The state a load ends in, re-entrant or not. -/
def settled (env : Environment) (url : URL) (s : Panel) : Panel :=
  if env.initSucceeds s.loads url = true ∧ s.selectedRow ≠ s.currentMusicIndex then
    (plainLoad env url (s.reentered env url)).finish env url
  else plainLoad env url s

/-- **Two frames are enough**: on the current song the mutual recursion ends,
    in the settled state, on every stack that holds two calls. -/
theorem loadPlayMusic_eq {url : URL} {s : Panel} {depth : Nat} (hdepth : 2 ≤ depth)
    (hurl : s.currentURL env = some url) :
    loadPlayMusic env depth url s = .ok (settled env url s) := by
  obtain ⟨d, rfl⟩ := Nat.exists_eq_add_of_le' hdepth
  rw [settled]
  by_cases hre : env.initSucceeds s.loads url = true ∧ s.selectedRow ≠ s.currentMusicIndex
  · rw [if_pos hre]
    exact loadPlayMusic_reentered hurl hre.1 hre.2
  · rw [if_neg hre]
    by_cases hinit : env.initSucceeds s.loads url = true
    · exact loadPlayMusic_selected (not_not.mp fun hrow => hre ⟨hinit, hrow⟩)
    · exact loadPlayMusic_failed (Bool.not_eq_true _ ▸ hinit)

theorem loadCurrent_eq {url : URL} {s : Panel} (hurl : s.currentURL env = some url) :
    loadCurrent env s = .ok (settled env url s) := by
  rw [loadCurrent, hurl]
  exact loadPlayMusic_eq env.stack_holds hurl

theorem loadCurrent_none {s : Panel} (hurl : s.currentURL env = none) :
    loadCurrent env s = .trap .indexOutOfRange s := by
  rw [loadCurrent, hurl]

/-- The four ways a load can go: it fails; it succeeds on the selected row; the
    second call inside it fails; or both succeed. -/
theorem settled_cases (env : Environment) (url : URL) (s : Panel) :
    (env.initSucceeds s.loads url = false ∧ settled env url s = s.tried) ∨
    (env.initSucceeds s.loads url = true ∧ s.selectedRow = s.currentMusicIndex ∧
      settled env url s = (s.tried.start (env.audioPlayer url)).finish env url) ∨
    (env.initSucceeds s.loads url = true ∧ s.selectedRow ≠ s.currentMusicIndex ∧
      env.initSucceeds (s.loads + 1) url = false ∧
      settled env url s = (s.reentered env url).tried.finish env url) ∨
    (env.initSucceeds s.loads url = true ∧ s.selectedRow ≠ s.currentMusicIndex ∧
      env.initSucceeds (s.loads + 1) url = true ∧
      settled env url s
        = (((s.reentered env url).tried.start (env.audioPlayer url)).finish env url).finish
            env url) := by
  cases hinit : env.initSucceeds s.loads url with
  | false =>
      refine Or.inl ⟨rfl, ?_⟩
      rw [settled, if_neg (by simp [hinit]), plainLoad, hinit]
      rfl
  | true =>
      refine Or.inr ?_
      -- selecting the selected row notifies nobody
      by_cases hrow : s.selectedRow = s.currentMusicIndex
      · refine Or.inl ⟨rfl, hrow, ?_⟩
        rw [settled, if_neg (by simp [hrow]), plainLoad, hinit, if_pos rfl]
      · refine Or.inr ?_
        have hloads : (s.reentered env url).loads = s.loads + 1 := rfl
        have hsettled : settled env url s
            = (plainLoad env url (s.reentered env url)).finish env url :=
          if_pos ⟨hinit, hrow⟩
        rw [hsettled, plainLoad, hloads]
        cases hinner : env.initSucceeds (s.loads + 1) url with
        | false => exact Or.inl ⟨rfl, hrow, rfl, rfl⟩
        | true => exact Or.inr ⟨rfl, hrow, rfl, rfl⟩

/-- A load moves neither the index nor the playlist nor the store. -/
theorem settled_keeps (env : Environment) (url : URL) (s : Panel) :
    (settled env url s).musicList = s.musicList ∧
    (settled env url s).currentMusicIndex = s.currentMusicIndex ∧
    (settled env url s).context = s.context := by
  rcases settled_cases env url s with ⟨-, heq⟩ | ⟨-, -, heq⟩ | ⟨-, -, -, heq⟩ | ⟨-, -, -, heq⟩
  · rw [heq]
    simp
  · rw [heq]
    simp
  · rw [heq]
    simp
  · rw [heq]
    simp

/-! ## What an event does -/

/-- The index `previousBtnTouched` moves to. -/
def previousIndex (count : Nat) (i : Int) : Int :=
  if i - 1 < 0 then count - 1 else i - 1

/-- The index `skipBtnTouched` moves to. -/
def nextIndex (count : Nat) (i : Int) : Int :=
  if i + 2 = count then 0 else i + 2

namespace Panel

@[simps] def toSelection (row : Int) (s : Panel) : Panel :=
  { s.stop with selectedRow := row, currentMusicIndex := row, playBtnEnabled := true }

@[simps] def toPrevious (s : Panel) : Panel :=
  { s.stop with currentMusicIndex := previousIndex s.musicList.length s.currentMusicIndex }

@[simps] def toNext (connection : Bool) (c : ManagedObjectContext) (s : Panel) : Panel :=
  { s.stop with
    context := c
    captures := if connection then s.captures + 1 else s.captures
    currentMusicIndex := nextIndex s.musicList.length s.currentMusicIndex }

end Panel

/-- The store update of a press of the skip button. -/
def Panel.skipUpdate (press : SkipPress) (s : Panel) : Outcome Trap ManagedObjectContext :=
  Mac3amStore.recordSkip s.musicList s.currentMusicIndex press.order press.saved s.context

/-- The state in which an event calls the loader, where it does. -/
def entry (s : Panel) : Event → Option Panel
  | .selection row =>
      if 0 ≤ row ∧ row < s.musicList.length ∧ s.selectedRow ≠ row then some (s.toSelection row)
      else none
  | .previous => some s.toPrevious
  | .skip press | .key press =>
      match s.skipUpdate press with
      | .ok c => some (s.toNext press.connection c)
      | .trap _ _ => none
  | _ => none

/-- The event is a press of the skip button, or of a key, which is the same. -/
def Event.Presses (press : SkipPress) (e : Event) : Prop := e = .skip press ∨ e = .key press

theorem Event.Presses.step_eq {press : SkipPress} {e : Event} (he : e.Presses press) (s : Panel) :
    step env s e = skipBtnTouched env press s := by
  rcases he with rfl | rfl
  · rfl
  · rfl

theorem Event.Presses.entry_eq {press : SkipPress} {e : Event} (he : e.Presses press)
    {s : Panel} {c : ManagedObjectContext} (hc : s.skipUpdate press = .ok c) :
    entry s e = some (s.toNext press.connection c) := by
  rcases he with rfl | rfl
  · rw [entry, hc]
  · rw [entry, hc]

/-- The three ways an event calls the loader. -/
theorem entry_cases {s m : Panel} {e : Event} (h : entry s e = some m) :
    (∃ row, e = .selection row ∧ 0 ≤ row ∧ row < s.musicList.length ∧ s.selectedRow ≠ row ∧
      m = s.toSelection row) ∨
    (e = .previous ∧ m = s.toPrevious) ∨
    (∃ press c, e.Presses press ∧ s.skipUpdate press = .ok c ∧
      m = s.toNext press.connection c) := by
  have hskip : ∀ press, (match s.skipUpdate press with
      | .ok c => some (s.toNext press.connection c)
      | .trap _ _ => none) = some m →
      ∃ c, s.skipUpdate press = .ok c ∧ m = s.toNext press.connection c := by
    intro press hm
    cases hupd : s.skipUpdate press with
    | ok c =>
        rw [hupd] at hm
        cases hm
        exact ⟨c, rfl, rfl⟩
    | trap t c =>
        rw [hupd] at hm
        cases hm
  cases e with
  | selection row =>
      rw [entry] at h
      by_cases hrow : 0 ≤ row ∧ row < s.musicList.length ∧ s.selectedRow ≠ row
      · rw [if_pos hrow] at h
        cases h
        exact Or.inl ⟨row, rfl, hrow.1, hrow.2.1, hrow.2.2, rfl⟩
      · rw [if_neg hrow] at h
        cases h
  | previous =>
      cases h
      exact Or.inr (Or.inl ⟨rfl, rfl⟩)
  | skip press =>
      obtain ⟨c, hupd, hm⟩ := hskip press h
      exact Or.inr (Or.inr ⟨press, c, Or.inl rfl, hupd, hm⟩)
  | key press =>
      obtain ⟨c, hupd, hm⟩ := hskip press h
      exact Or.inr (Or.inr ⟨press, c, Or.inr rfl, hupd, hm⟩)
  | play => cases h
  | trackEnds k => cases h
  | trackAdvances k time => cases h
  | progressWakes => cases h
  | tick => cases h

/-- What moving to a song leaves alone: everything but the index, the row, the
    button and, for a skip, the store and the count of captures; the player is
    stopped. -/
structure Moved (s m : Panel) : Prop where
  musicList : m.musicList = s.musicList
  players : m.players = s.stop.players
  player : m.player = s.player
  currentMusicPlayer : m.currentMusicPlayer = s.currentMusicPlayer
  playBtnImage : m.playBtnImage = s.playBtnImage
  maxValue : m.maxValue = s.maxValue
  albumArt : m.albumArt = s.albumArt
  loads : m.loads = s.loads

/-- Every event that calls the loader has only moved before. -/
theorem entry_moved {s m : Panel} {e : Event} (h : entry s e = some m) : Moved s m := by
  rcases entry_cases h with ⟨row, -, -, -, -, rfl⟩ | ⟨-, rfl⟩ | ⟨press, c, -, -, rfl⟩
  · exact ⟨rfl, rfl, rfl, rfl, rfl, rfl, rfl, rfl⟩
  · exact ⟨rfl, rfl, rfl, rfl, rfl, rfl, rfl, rfl⟩
  · exact ⟨rfl, rfl, rfl, rfl, rfl, rfl, rfl, rfl⟩

theorem previousBtnTouched_eq (s : Panel) :
    previousBtnTouched env s = loadCurrent env s.toPrevious := by
  show loadCurrent env (if s.currentMusicIndex - 1 < 0 then _ else _) = _
  rw [Panel.toPrevious, previousIndex]
  by_cases hneg : s.currentMusicIndex - 1 < 0
  · rw [if_pos hneg, if_pos hneg]
    rfl
  · rw [if_neg hneg, if_neg hneg]
    rfl

theorem nextMusic_eq (connection : Bool) (c : ManagedObjectContext) (s : Panel) :
    nextMusic env (({ s.stop with context := c } : Panel).captureImage connection)
      = loadCurrent env (s.toNext connection c) := by
  have hcapture : ({ s.stop with context := c } : Panel).captureImage connection
      = { s.stop with
          context := c, captures := if connection then s.captures + 1 else s.captures } := by
    cases connection <;> rfl
  rw [hcapture]
  show loadCurrent env (if s.currentMusicIndex + 2 = s.musicList.length then _ else _) = _
  rw [Panel.toNext, nextIndex]
  by_cases hend : s.currentMusicIndex + 2 = s.musicList.length
  · rw [if_pos hend, if_pos hend]
  · rw [if_neg hend, if_neg hend]
    rfl

/-- A press of the skip button: the store update, then the next song. -/
theorem skipBtnTouched_eq (press : SkipPress) (s : Panel) :
    skipBtnTouched env press s
      = match s.skipUpdate press with
        | .ok c => loadCurrent env (s.toNext press.connection c)
        | .trap t c => .trap t { s.stop with context := c } := by
  show ((s.skipUpdate press).map fun c => ({ s.stop with context := c } : Panel)).andThen _ = _
  cases s.skipUpdate press with
  | ok c => exact nextMusic_eq press.connection c s
  | trap t c => rfl

/-- An event that loads a song moves to it and loads it. -/
theorem step_of_entry {s m : Panel} {e : Event} (h : entry s e = some m) :
    step env s e = loadCurrent env m := by
  rcases entry_cases h with ⟨row, rfl, hrow, hlt, hsel, rfl⟩ | ⟨rfl, rfl⟩ |
      ⟨press, c, he, hupd, rfl⟩
  · obtain ⟨url, hurl⟩ : ∃ url, (s.toSelection row).currentURL env = some url := by
      obtain ⟨song, hsong⟩ := subscript_isSome.mpr ⟨hrow, hlt⟩
      exact ⟨_, congrArg (Option.map _) hsong⟩
    rw [step, if_pos ⟨by omega, hlt⟩, selectRow, if_neg hsel, loadCurrent, hurl]
    exact tableViewSelectionDidChange_some hurl
  · exact previousBtnTouched_eq s
  · rw [he.step_eq, skipBtnTouched_eq, hupd]

/-- A press that returns has made its store update. -/
theorem Event.Presses.skipUpdate_ok {press : SkipPress} {e : Event} (he : e.Presses press)
    {s s' : Panel} (h : step env s e = .ok s') : ∃ c, s.skipUpdate press = .ok c := by
  rw [he.step_eq, skipBtnTouched_eq] at h
  cases hupd : s.skipUpdate press with
  | ok c => exact ⟨c, rfl⟩
  | trap t c =>
      rw [hupd] at h
      cases h

/-- The store update of a press stands, whether or not the move to the next
    song traps. -/
theorem Event.Presses.step_context (env : Environment) {press : SkipPress} {e : Event}
    (he : e.Presses press) {s : Panel} {c : ManagedObjectContext}
    (hc : s.skipUpdate press = .ok c) :
    (step env s e).state.context = c := by
  rw [step_of_entry (he.entry_eq hc)]
  cases hurl : (s.toNext press.connection c).currentURL env with
  | none => rw [loadCurrent_none hurl, Outcome.state_trap, Panel.toNext_context]
  | some url =>
      rw [loadCurrent_eq hurl, Outcome.state_ok, (settled_keeps env url _).2.2,
        Panel.toNext_context]

/-- `l'` is `l` with some objects paused, moved on, or, for the global `player`
    alone, started. -/
def Kept (player : Option Nat) (l l' : List AVAudioPlayer) : Prop :=
  l'.length = l.length ∧
    ∀ (k : Nat) (p' : AVAudioPlayer), l'[k]? = some p' →
      ∃ p, l[k]? = some p ∧ p'.url = p.url ∧ p'.duration = p.duration ∧
        (p'.isPlaying = true → p.isPlaying = true ∨ player = some k)

theorem Kept.refl (player : Option Nat) (l : List AVAudioPlayer) : Kept player l l :=
  ⟨rfl, fun _ p hp => ⟨p, hp, rfl, rfl, Or.inl⟩⟩

/-- A change to one player object that respects its file. -/
theorem kept_modify {player : Option Nat} {l : List AVAudioPlayer} {k : Nat}
    {f : AVAudioPlayer → AVAudioPlayer}
    (hf : ∀ p, (f p).url = p.url ∧ (f p).duration = p.duration ∧
      ((f p).isPlaying = true → p.isPlaying = true ∨ player = some k)) :
    Kept player l (l.modify k f) := by
  refine ⟨List.length_modify f l k, ?_⟩
  intro j p' hp'
  rw [List.getElem?_modify] at hp'
  obtain ⟨p, hp, hfp⟩ := Option.map_eq_some_iff.mp hp'
  refine ⟨p, hp, ?_⟩
  by_cases hkj : k = j
  · rw [if_pos hkj] at hfp
    rw [← hfp, ← hkj]
    exact hf p
  · rw [if_neg hkj] at hfp
    rw [← hfp]
    exact ⟨rfl, rfl, Or.inl⟩

/-- What an event that loads nothing leaves alone. -/
structure Idle (s s' : Panel) : Prop where
  musicList : s'.musicList = s.musicList
  currentMusicIndex : s'.currentMusicIndex = s.currentMusicIndex
  selectedRow : s'.selectedRow = s.selectedRow
  playBtnEnabled : s'.playBtnEnabled = s.playBtnEnabled
  context : s'.context = s.context
  player : s'.player = s.player
  currentMusicPlayer : s'.currentMusicPlayer = s.currentMusicPlayer
  maxValue : s'.maxValue = s.maxValue
  progressBlocks : s'.progressBlocks = s.progressBlocks
  albumArt : s'.albumArt = s.albumArt
  loads : s'.loads = s.loads
  players : Kept s.player s.players s'.players
  postedTicks : 0 < s'.postedTicks → 0 < s.postedTicks ∨ 0 < s.progressBlocks

theorem Idle.refl (s : Panel) : Idle s s :=
  ⟨rfl, rfl, rfl, rfl, rfl, rfl, rfl, rfl, rfl, rfl, rfl, Kept.refl _ _, Or.inl⟩

/-- A change to one player object that respects its file is idle. -/
theorem onPlayer_idle {s : Panel} {k : Nat} {f : AVAudioPlayer → AVAudioPlayer}
    (hf : ∀ p, (f p).url = p.url ∧ (f p).duration = p.duration ∧
      ((f p).isPlaying = true → p.isPlaying = true ∨ s.player = some k)) :
    Idle s (s.onPlayer k f) :=
  ⟨rfl, rfl, rfl, rfl, rfl, rfl, rfl, rfl, rfl, rfl, rfl, kept_modify hf, Or.inl⟩

theorem playBtnTouched_idle (s : Panel) : Idle s (playBtnTouched s) := by
  rw [playBtnTouched]
  cases hplayer : s.player with
  | none => exact Idle.refl s
  | some k =>
      dsimp only
      cases s.players[k]? with
      | none => exact Idle.refl s
      | some p =>
          show Idle s (if p.isPlaying then _ else _)
          cases p.isPlaying with
          | true =>
              have hpause : Idle s (s.onPlayer k fun p => { p with isPlaying := false }) :=
                onPlayer_idle fun p => ⟨rfl, rfl, fun hp => absurd hp Bool.false_ne_true⟩
              exact { hpause with }
          | false =>
              have hplay : Idle s (s.onPlayer k fun p => { p with isPlaying := true }) :=
                onPlayer_idle fun p => ⟨rfl, rfl, fun _ => Or.inr hplayer⟩
              exact { hplay with }

theorem showProgress_some {s : Panel} {p : AVAudioPlayer}
    (hp : (s.currentMusicPlayer.bind fun k => s.players[k]?) = some p) :
    showProgress s = .ok { s with doubleValue := p.currentTime } := by
  rw [showProgress, hp]

theorem showProgress_idle {s s' : Panel} (h : showProgress s = .ok s') : Idle s s' := by
  rw [showProgress] at h
  cases hp : s.currentMusicPlayer.bind fun k => s.players[k]? with
  | none =>
      rw [hp] at h
      cases h
  | some p =>
      rw [hp] at h
      cases h
      exact { Idle.refl s with }

/-- What only changes an object while it plays, and respects its file, is idle. -/
theorem onPlaying_idle {s : Panel} {k : Nat} {f : AVAudioPlayer → AVAudioPlayer}
    (hf : ∀ p, (f p).url = p.url ∧ (f p).duration = p.duration) :
    Idle s (s.onPlayer k fun p => if p.isPlaying then f p else p) := by
  refine onPlayer_idle ?_
  intro p
  cases hp : p.isPlaying with
  | true => exact ⟨(hf p).1, (hf p).2, fun _ => Or.inl rfl⟩
  | false => exact ⟨rfl, rfl, fun hp' => Or.inl (hp ▸ hp')⟩

/-- A selection change that loads nothing and returns changes nothing. -/
theorem selection_same {s s' : Panel} {row : Int} (hentry : entry s (.selection row) = none)
    (h : step env s (.selection row) = .ok s') : s' = s := by
  rw [step] at h
  by_cases hrow : -1 ≤ row ∧ row < s.musicList.length
  · rw [if_pos hrow, selectRow] at h
    by_cases hsel : s.selectedRow = row
    · rw [if_pos hsel] at h
      cases h
      rfl
    · -- the selection was emptied, and the handler traps
      have hnone : subscript s.musicList row = none := by
        rw [entry] at hentry
        by_cases hneg : 0 ≤ row
        · rw [if_pos ⟨hneg, hrow.2, hsel⟩] at hentry
          cases hentry
        · exact subscript_of_neg (by omega)
      rw [if_neg hsel, tableViewSelectionDidChange_none (s := { s with selectedRow := row })
        (congrArg (Option.map _) hnone)] at h
      cases h
  · rw [if_neg hrow] at h
    cases h
    rfl

theorem selection_idle {s s' : Panel} {row : Int} (hentry : entry s (.selection row) = none)
    (h : step env s (.selection row) = .ok s') : Idle s s' := by
  rw [selection_same hentry h]
  exact Idle.refl s

/-- A press that returns has moved to a song. -/
theorem Event.Presses.entry_ne_none {press : SkipPress} {e : Event} (he : e.Presses press)
    {s s' : Panel} (h : step env s e = .ok s') : entry s e ≠ none := by
  obtain ⟨c, hc⟩ := he.skipUpdate_ok h
  rw [he.entry_eq hc]
  exact Option.some_ne_none _

/-- An event that loads nothing and returns is idle. -/
theorem step_idle {s s' : Panel} {e : Event} (hentry : entry s e = none)
    (h : step env s e = .ok s') : Idle s s' := by
  cases e with
  | selection row => exact selection_idle hentry h
  | previous => cases hentry
  | skip press => exact absurd hentry (Event.Presses.entry_ne_none (Or.inl rfl) h)
  | key press => exact absurd hentry (Event.Presses.entry_ne_none (Or.inr rfl) h)
  | play =>
      cases h
      exact playBtnTouched_idle s
  | trackEnds k =>
      cases h
      exact onPlaying_idle fun _ => ⟨rfl, rfl⟩
  | trackAdvances k time =>
      cases h
      exact onPlaying_idle fun _ => ⟨rfl, rfl⟩
  | progressWakes =>
      rw [step] at h
      by_cases hb : s.progressBlocks = 0
      · rw [if_pos hb] at h
        cases h
        exact Idle.refl s
      · rw [if_neg hb] at h
        cases h
        exact { Idle.refl s with postedTicks := fun _ => Or.inr (Nat.pos_of_ne_zero hb) }
  | tick =>
      rw [step] at h
      by_cases hb : s.postedTicks = 0
      · rw [if_pos hb] at h
        cases h
        exact Idle.refl s
      · rw [if_neg hb] at h
        have hshow := showProgress_idle h
        exact { hshow with postedTicks := fun _ => Or.inl (Nat.pos_of_ne_zero hb) }

/-- **Everything a returning event can have done**: it moved to a song and
    loaded it, or it was idle. -/
theorem step_cases {s s' : Panel} {e : Event} (h : step env s e = .ok s') :
    (∃ m url, entry s e = some m ∧ m.currentURL env = some url ∧ s' = settled env url m) ∨
      (entry s e = none ∧ Idle s s') := by
  cases hentry : entry s e with
  | some m =>
      rw [step_of_entry hentry] at h
      cases hurl : m.currentURL env with
      | none =>
          rw [loadCurrent_none hurl] at h
          cases h
      | some url =>
          rw [loadCurrent_eq hurl] at h
          cases h
          exact Or.inl ⟨m, url, rfl, hurl, rfl⟩
  | none => exact Or.inr ⟨rfl, step_idle hentry h⟩

/-- **What an event that loads nothing has done**, to the letter. -/
theorem idle_step_cases {s s' : Panel} {e : Event} (hentry : entry s e = none)
    (h : step env s e = .ok s') :
    s' = s ∨ (e = .play ∧ s' = playBtnTouched s) ∨
    (∃ k, e = .trackEnds k ∧ s' = s.onPlayer k fun p =>
      if p.isPlaying then { p with isPlaying := false, currentTime := 0 } else p) ∨
    (∃ k time, e = .trackAdvances k time ∧ s' = s.onPlayer k fun p =>
      if p.isPlaying then { p with currentTime := time } else p) ∨
    (e = .progressWakes ∧ s' = { s with postedTicks := s.postedTicks + 1 }) ∨
    (e = .tick ∧ ∃ p : AVAudioPlayer,
      s' = { s with postedTicks := s.postedTicks - 1, doubleValue := p.currentTime }) := by
  cases e with
  | selection row => exact Or.inl (selection_same hentry h)
  | previous => cases hentry
  | skip press => exact absurd hentry (Event.Presses.entry_ne_none (Or.inl rfl) h)
  | key press => exact absurd hentry (Event.Presses.entry_ne_none (Or.inr rfl) h)
  | play => exact Or.inr (Or.inl ⟨rfl, (Outcome.ok.inj h).symm⟩)
  | trackEnds k => exact Or.inr (Or.inr (Or.inl ⟨k, rfl, (Outcome.ok.inj h).symm⟩))
  | trackAdvances k time =>
      exact Or.inr (Or.inr (Or.inr (Or.inl ⟨k, time, rfl, (Outcome.ok.inj h).symm⟩)))
  | progressWakes =>
      rw [step] at h
      by_cases hb : s.progressBlocks = 0
      · rw [if_pos hb] at h
        exact Or.inl (Outcome.ok.inj h).symm
      · rw [if_neg hb] at h
        exact Or.inr (Or.inr (Or.inr (Or.inr (Or.inl ⟨rfl, (Outcome.ok.inj h).symm⟩))))
  | tick =>
      rw [step] at h
      by_cases hb : s.postedTicks = 0
      · rw [if_pos hb] at h
        exact Or.inl (Outcome.ok.inj h).symm
      · rw [if_neg hb, showProgress] at h
        split at h
        · cases h
        · exact Or.inr (Or.inr (Or.inr (Or.inr (Or.inr ⟨rfl, _, (Outcome.ok.inj h).symm⟩))))

/-- No event touches the playlist. -/
theorem step_musicList {s s' : Panel} {e : Event} (h : step env s e = .ok s') :
    s'.musicList = s.musicList := by
  rcases step_cases h with ⟨m, url, hentry, -, rfl⟩ | ⟨-, hidle⟩
  · rw [(settled_keeps env url m).1, (entry_moved hentry).musicList]
  · exact hidle.musicList

end Mac3amPanel

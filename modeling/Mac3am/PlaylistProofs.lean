import Mac3am.PanelConsistencyProofs

/-! # The playlist in the table

    The table asks its data source how many rows there are and what stands in
    each cell; the same controller loads a song when the row is selected.  The
    two read the playlist independently of each other.

    * `viewFor_row` — a row of the table never traps, and its text is its song,
      whatever the cell held before;
    * `row_plays_what_it_shows` — after any run the song a row shows is the one
      that selecting it plays, and the one that plays while the row is
      highlighted on a consistent panel. -/

namespace Mac3amPanel

open Swift TrapRun Mac3amStore

/-- A cell of the table; `textField` is the text of its text field, if it has
    one. -/
structure NSTableCellView where
  textField : Option String
deriving DecidableEq, Repr

/-- The table, as far as its delegate asks: its columns by their identity, and
    the cells it makes, fresh or used before. -/
structure NSTableView where
  tableColumns : List Nat
  makeView : String → Option NSTableCellView

def numberOfRows (s : Panel) : Nat := s.musicList.length

/-- `tableView(_:viewFor:row:)` -/
def viewFor (tableView : NSTableView) (tableColumn : Option Nat) (row : Int) (s : Panel) :
    Except Trap (Option NSTableCellView) := do
  let first ← element tableView.tableColumns 0
  let cellIdentifier := if tableColumn = some first then "playList" else ""
  match tableView.makeView cellIdentifier with
  | none => return none
  | some cell =>
      match cell.textField with
      | none => return some cell   -- the assignment is skipped with its right side
      | some _ =>
          match subscript s.musicList row with
          | none => throw .indexOutOfRange
          | some name => return some { cell with textField := some name }

/-- The identifier of the cells of a column. -/
def cellIdentifier (tableView : NSTableView) (tableColumn : Option Nat) : String :=
  if tableColumn = tableView.tableColumns.head? then "playList" else ""

variable {env : Environment} {s : Panel} {row : Int} {name : String}

/-- **What a row shows**: none of its cells traps, and one that has a text field
    shows its song there. -/
theorem viewFor_row {tableView : NSTableView} (hcolumns : tableView.tableColumns ≠ [])
    (hname : subscript s.musicList row = some name) (tableColumn : Option Nat) :
    viewFor tableView tableColumn row s
      = .ok ((tableView.makeView (cellIdentifier tableView tableColumn)).map fun cell =>
          { cell with textField := cell.textField.map fun _ => name }) := by
  obtain ⟨first, rest, hfirst⟩ := List.exists_cons_of_ne_nil hcolumns
  rw [viewFor, cellIdentifier, hfirst, List.head?_cons]
  show (match tableView.makeView (if tableColumn = some first then "playList" else "") with
    | none => _
    | some cell => _) = _
  cases tableView.makeView (if tableColumn = some first then "playList" else "") with
  | none => rfl
  | some cell =>
      obtain ⟨textField⟩ := cell
      cases textField with
      | none => rfl
      | some text =>
          dsimp only
          rw [hname]
          rfl

/-- Selecting a row of another song stops what played, and plays the song of the
    row and nothing else, where it can be played. -/
theorem selection_plays (env : Environment) (h : Sound s)
    (hname : subscript s.musicList row = some name) (hother : s.selectedRow ≠ row) :
    ∃ s', step env s (.selection row) = .ok s' ∧ s'.selectedRow = row ∧
      (env.initSucceeds s.loads (env.file name) = false → Quiet s') ∧
      (env.initSucceeds s.loads (env.file name) = true →
        (∃ p, s'.globalPlayer = some p ∧ p.isPlaying = true ∧ p.url = env.file name) ∧
          ∀ (k : Nat) (q : AVAudioPlayer), s'.players[k]? = some q → q.isPlaying = true →
            s'.player = some k) := by
  have hin := subscript_isSome.mp ⟨name, hname⟩
  have hentry : entry s (.selection row) = some (s.toSelection row) :=
    if_pos ⟨hin.1, hin.2, hother⟩
  have hurl : (s.toSelection row).currentURL env = some (env.file name) := by
    show (subscript s.musicList row).map _ = _
    rw [hname]
    rfl
  have hstep := (step_of_entry hentry).trans (loadCurrent_eq hurl)
  obtain ⟨-, hquiet⟩ := entry_sound hentry h
  rcases settled_cases env (env.file name) (s.toSelection row) with ⟨hinit, heq⟩ | ⟨hinit, -, heq⟩ |
      ⟨-, hrow, -⟩ | ⟨-, hrow, -⟩
  · refine ⟨_, hstep, ?_, fun _ => ?_, fun hok => nomatch hinit.symm.trans hok⟩
    · rw [heq]
      rfl
    · rw [heq]
      exact hquiet
  · refine ⟨_, hstep, ?_, fun hfail => (nomatch hinit.symm.trans hfail), fun _ => ?_⟩
    · rw [heq]
      rfl
    · refine ⟨?_, (step_sound h hstep).playing⟩
      rw [heq]
      exact ⟨_, start_globalPlayer _ (s.toSelection row).tried, rfl, rfl⟩
  · exact absurd rfl hrow
  · exact absurd rfl hrow

/-- **What a row shows is what it plays**: after any run, for every row the table
    has, every column shows its song or no text; selecting the row stops what
    played and plays that song alone, or nothing where it cannot be played; and
    while the row is highlighted on a consistent panel, that song is the one in
    the player. -/
theorem row_plays_what_it_shows (env : Environment) (contents : List String)
    (records : List Entity) {s : Panel} (h : Reachable env contents records s)
    (tableView : NSTableView) (hcolumns : tableView.tableColumns ≠ []) {row : Int}
    (hrow : 0 ≤ row ∧ row < numberOfRows s) :
    ∃ name, subscript contents row = some name ∧
      (∀ tableColumn, viewFor tableView tableColumn row s
        = .ok ((tableView.makeView (cellIdentifier tableView tableColumn)).map fun cell =>
            { cell with textField := cell.textField.map fun _ => name })) ∧
      (s.selectedRow ≠ row → ∃ s', step env s (.selection row) = .ok s' ∧ s'.selectedRow = row ∧
        (env.initSucceeds s.loads (env.file name) = false → Quiet s') ∧
        (env.initSucceeds s.loads (env.file name) = true →
          (∃ p, s'.globalPlayer = some p ∧ p.isPlaying = true ∧ p.url = env.file name) ∧
            ∀ (k : Nat) (q : AVAudioPlayer), s'.players[k]? = some q → q.isPlaying = true →
              s'.player = some k)) ∧
      (s.selectedRow = row → Shown env s → ∀ p, s.globalPlayer = some p →
        p.url = env.file name) := by
  obtain ⟨name, hname⟩ := subscript_isSome.mpr hrow
  refine ⟨name, h.musicList ▸ hname, viewFor_row hcolumns hname,
    selection_plays env h.sound hname, ?_⟩
  rintro rfl hshown p hp
  rcases hshown with hnone | ⟨hindex, q, hq, hfile, -⟩
  · cases hnone.symm.trans hp
  · cases hq.symm.trans hp
    rw [Panel.currentURL, Panel.currentSong, ← hindex, hname] at hfile
    exact (Option.some.inj hfile).symm

/-- A table of one column whose cells were used for another song before. -/
theorem row_plays_what_it_shows_used_cell :
    ∃ s s' p, run (step (.plain fun _ _ => true)) (viewDidLoad ["one", "two"] [])
        [.selection 0] = .ok s ∧
      viewFor ⟨[0], fun _ => some ⟨some "one"⟩⟩ (some 0) 1 s = .ok (some ⟨some "two"⟩) ∧
      step (.plain fun _ _ => true) s (.selection 1) = .ok s' ∧
      s'.globalPlayer = some p ∧ p.url.lastPathComponent = "two" := by
  obtain ⟨name, hname, hview, hselects, -⟩ := row_plays_what_it_shows (.plain fun _ _ => true)
    ["one", "two"] [] ⟨[.selection 0], rfl⟩ ⟨[0], fun _ => some ⟨some "one"⟩⟩ (by decide)
    (show (0 : Int) ≤ 1 ∧ (1 : Int) < numberOfRows _ from ⟨by decide, by decide⟩)
  cases hname
  obtain ⟨s', hs', -, -, hplays⟩ := hselects (by decide)
  obtain ⟨⟨p, hp, -, hurl⟩, -⟩ := hplays rfl
  exact ⟨_, s', p, rfl, hview (some 0), hs', hp, by rw [hurl]; rfl⟩

end Mac3amPanel

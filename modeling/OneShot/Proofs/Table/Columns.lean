import OneShot.Table.Listing
import OneShot.Proofs.Decimal.Integers
import OneShot.Proofs.Traversal

/-!
# Columns that are read back

The lines of a table have their columns at the same places, as no cell is wider than its column.
Blanks at the end of a line are all that it loses, so the cells are found again at the places of
their columns, up to the blanks at their own ends.
-/

namespace OneShot.Table

open OneShot.Text

/-- The place at which a column begins. -/
def start : List Nat → Nat → Nat
  | width :: rest, column + 1 => width + gap + start rest column
  | _, _ => 0

/-- The part of a line from the begin of a column up to that of the next one. -/
def cut (widths : List Nat) (column : Nat) (line : List Char) : List Char :=
  let rest := line.drop (start widths column)
  if column + 1 < widths.length then
    rest.take (start widths (column + 1) - start widths column)
  else rest

/-- The spaces that follow a cell. -/
def spacing (widths : List Nat) (column : Nat) (cell : String) : Nat :=
  widths.getD column 0 - cell.length + if column + 1 < widths.length then gap else 0

/-- A line of a table that shows some cells in columns of some widths. -/
structure LinesUp (widths : List Nat) (cells : List String) (line : String) : Prop where
  columns : cells.length = widths.length
  /-- The line is the padded one without some blanks at its end. -/
  trimmed : ∃ blanks, (paddedLine widths cells).toList = line.toList ++ blanks ∧
    ∀ c ∈ blanks, isBlank c = true
  /-- Each cell stands in its column of the padded line. -/
  stands : ∀ column cell, cells[column]? = some cell →
    cell.length ≤ widths.getD column 0 ∧
      cut widths column (paddedLine widths cells).toList =
        cell.toList ++ List.replicate (spacing widths column cell) ' '
  /-- Each cell is found again in the line. -/
  found : ∀ column cell, cells[column]? = some cell →
    trimEnd (String.ofList (cut widths column line.toList)) = trimEnd cell

/-! ## Widths -/

/-- Each cell is at most as wide as its column. -/
def Fit (cells : List String) (widths : List Nat) : Prop :=
  List.Forall₂ (fun cell width => cell.length ≤ width) cells widths

section Widths

variable {cells other : List String} {widths : List Nat}

theorem fit_widen (hlength : cells.length = widths.length) : Fit cells (widen widths cells) := by
  induction widths generalizing cells with
  | nil =>
      rw [List.length_eq_zero_iff.mp hlength]
      exact .nil
  | cons width rest ih =>
      obtain ⟨cell, later, rfl⟩ := List.exists_cons_of_length_eq_add_one hlength
      exact .cons (le_max_right width cell.length) (ih (Nat.succ.inj hlength))

/-- Columns only become wider. -/
theorem Fit.widen (hfit : Fit cells widths) (hlength : other.length = widths.length) :
    Fit cells (widen widths other) := by
  induction hfit generalizing other with
  | nil =>
      rw [List.length_eq_zero_iff.mp hlength]
      exact .nil
  | @cons cell width _ rest hcell _ ih =>
      obtain ⟨first, later, rfl⟩ := List.exists_cons_of_length_eq_add_one hlength
      exact .cons (hcell.trans (le_max_left width first.length)) (ih (Nat.succ.inj hlength))

theorem length_widen (hlength : cells.length = widths.length) :
    (Table.widen widths cells).length = widths.length := by
  rw [Table.widen, List.length_zipWith, hlength, Nat.min_self]

theorem forall_length_widen {lines : List (List String)}
    (hlines : ∀ line ∈ cells :: lines, line.length = widths.length) :
    ∀ line ∈ lines, line.length = (Table.widen widths cells).length := by
  intro line hline
  rw [length_widen (hlines cells List.mem_cons_self)]
  exact hlines line (List.mem_cons_of_mem cells hline)

/-- What fits goes on to fit while lines are taken into account. -/
theorem Fit.foldl_widen {lines : List (List String)} (hfit : Fit cells widths)
    (hlines : ∀ line ∈ lines, line.length = widths.length) :
    Fit cells (lines.foldl Table.widen widths) := by
  induction lines generalizing widths with
  | nil => exact hfit
  | cons first rest ih =>
      exact ih (hfit.widen (hlines first List.mem_cons_self)) (forall_length_widen hlines)

/-- Every line that is taken into account fits. -/
theorem fit_foldl_widen {lines : List (List String)}
    (hlines : ∀ line ∈ lines, line.length = widths.length) :
    ∀ line ∈ lines, Fit line (lines.foldl Table.widen widths) := by
  induction lines generalizing widths with
  | nil => exact fun _ hline => absurd hline List.not_mem_nil
  | cons first rest ih =>
      have hrest := forall_length_widen hlines
      intro line hline
      rcases List.mem_cons.mp hline with rfl | hline
      · exact (fit_widen (hlines line List.mem_cons_self)).foldl_widen hrest
      · exact ih hrest line hline

/-- The columns of a table are wide enough for all its cells. -/
theorem fit_columnWidths {header : List String} {lines : List (List String)}
    (hlines : ∀ line ∈ lines, line.length = header.length) :
    ∀ line ∈ header :: lines, Fit line (columnWidths header lines) := by
  have hlengths : ∀ line ∈ lines, line.length = (header.map String.length).length := by
    simpa using hlines
  have hheader : Fit header (header.map String.length) := by
    rw [Fit, List.forall₂_map_right_iff]
    exact List.forall₂_same.mpr fun _ _ => le_rfl
  intro line hline
  rcases List.mem_cons.mp hline with rfl | hline
  · exact hheader.foldl_widen hlengths
  · exact fit_foldl_widen hlengths line hline

end Widths

/-! ## Lines -/

section Lines

variable {cell next : String} {cells : List String} {width nextWidth column : Nat}
  {widths : List Nat}

theorem toList_pad (width : Nat) (cell : String) :
    (pad width cell).toList = cell.toList ++ List.replicate (width - cell.length) ' ' := by
  rw [pad, String.toList_append, String.toList_ofList]

/-- The first column of a padded line and the gap behind it, and the padded line of the others. -/
theorem toList_paddedLine_cons_cons :
    (paddedLine (width :: nextWidth :: widths) (cell :: next :: cells)).toList =
      (cell.toList ++ List.replicate (width - cell.length + gap) ' ') ++
        (paddedLine (nextWidth :: widths) (next :: cells)).toList := by
  simp only [paddedLine, List.zipWith_cons_cons, String.intercalate_cons_cons,
    String.toList_append, toList_pad, String.toList_ofList, List.append_assoc,
    ← List.replicate_append_replicate]

theorem length_first (hcell : cell.length ≤ width) :
    (cell.toList ++ List.replicate (width - cell.length + gap) ' ').length = width + gap := by
  rw [List.length_append, List.length_replicate, String.length_toList]
  omega

theorem cut_succ (widths : List Nat) (line : List Char) :
    cut (width :: widths) (column + 1) line = cut widths column (line.drop (width + gap)) := by
  simp only [cut, start, List.length_cons, Nat.add_lt_add_iff_right, List.drop_drop,
    Nat.add_sub_add_left]

theorem spacing_succ :
    spacing (width :: widths) (column + 1) cell = spacing widths column cell := by
  simp only [spacing, List.getD_cons_succ, List.length_cons, Nat.add_lt_add_iff_right]

/-- In a padded line each column holds its cell and nothing but spaces behind it. -/
theorem cut_paddedLine (hfit : Fit cells widths) (hcell : cells[column]? = some cell) :
    cell.length ≤ widths.getD column 0 ∧
      cut widths column (paddedLine widths cells).toList =
        cell.toList ++ List.replicate (spacing widths column cell) ' ' := by
  induction hfit generalizing column with
  | nil => cases hcell
  | @cons first width later rest hfirst hlater ih =>
      cases column with
      | zero =>
          obtain rfl : first = cell := Option.some.inj hcell
          refine ⟨hfirst, ?_⟩
          cases hlater with
          | nil => simp [cut, start, spacing, paddedLine, toList_pad]
          | @cons next nextWidth later rest =>
              have hspacing : spacing (width :: nextWidth :: rest) 0 first =
                  width - first.length + gap := by
                simp [spacing]
              have hcut : ∀ line, cut (width :: nextWidth :: rest) 0 line =
                  line.take (width + gap) := by
                simp [cut, start]
              rw [hcut, hspacing, toList_paddedLine_cons_cons,
                List.take_left' (length_first hfirst)]
      | succ column =>
          cases hlater with
          | nil => cases hcell
          | @cons next nextWidth later rest =>
              rw [cut_succ, spacing_succ, toList_paddedLine_cons_cons,
                List.drop_left' (length_first hfirst)]
              exact ih hcell

end Lines

/-! ## Blanks at the end -/

theorem dropTail_append_blanks {drop : Char → Bool} {chars blanks : List Char}
    (hblanks : ∀ c ∈ blanks, drop c = true) :
    dropTail drop (chars ++ blanks) = dropTail drop chars := by
  have hreversed : ∀ c ∈ blanks.reverse, drop c = true := fun c hc =>
    hblanks c (List.mem_reverse.mp hc)
  rw [dropTail, List.reverse_append, List.dropWhile_append_of_pos hreversed, dropTail]

/-- Blanks at the end of a line are blanks at the end of what is cut out of it. -/
theorem dropTail_cut {widths : List Nat} {column : Nat} {line blanks : List Char}
    (hblanks : ∀ c ∈ blanks, isBlank c = true) :
    dropTail isBlank (cut widths column (line ++ blanks)) =
      dropTail isBlank (cut widths column line) := by
  unfold cut
  dsimp only
  rw [List.drop_append]
  split
  · rw [List.take_append]
    exact dropTail_append_blanks fun c hc =>
      hblanks c (List.mem_of_mem_drop (List.mem_of_mem_take hc))
  · exact dropTail_append_blanks fun c hc => hblanks c (List.mem_of_mem_drop hc)

theorem exists_blanks (text : String) :
    ∃ blanks, text.toList = (trimEnd text).toList ++ blanks ∧ ∀ c ∈ blanks, isBlank c = true := by
  refine ⟨(text.toList.reverse.takeWhile isBlank).reverse, ?_, fun c hc =>
    List.mem_takeWhile_imp (List.mem_reverse.mp hc)⟩
  rw [trimEnd, String.toList_ofList, Decimal.dropTail_append_tail]

theorem linesUp_trimEnd {cells : List String} {widths : List Nat} (hfit : Fit cells widths) :
    LinesUp widths cells (trimEnd (paddedLine widths cells)) := by
  obtain ⟨blanks, hpadded, hblanks⟩ := exists_blanks (paddedLine widths cells)
  generalize trimEnd (paddedLine widths cells) = line at hpadded
  refine ⟨hfit.length_eq, ⟨blanks, hpadded, hblanks⟩, fun column cell => cut_paddedLine hfit,
    fun column cell hcell => ?_⟩
  have hspaces : ∀ c ∈ List.replicate (spacing widths column cell) ' ', isBlank c = true := by
    intro c hc
    rw [List.eq_of_mem_replicate hc]
    decide
  rw [trimEnd, trimEnd, String.toList_ofList, ← dropTail_cut hblanks, ← hpadded,
    (cut_paddedLine hfit hcell).2, dropTail_append_blanks hspaces]

/-- The lines of a table line up with its header. -/
theorem layOut_linesUp {header : List String} {lines : List (List String)}
    (hlines : ∀ line ∈ lines, line.length = header.length) :
    ∃ widths first rest, layOut header lines = first :: rest ∧ LinesUp widths header first ∧
      List.Forall₂ (LinesUp widths) lines rest := by
  have hfit := fit_columnWidths hlines
  refine ⟨columnWidths header lines, _, _, rfl,
    linesUp_trimEnd (hfit header List.mem_cons_self), ?_⟩
  rw [List.forall₂_map_right_iff, List.forall₂_same]
  exact fun line hline => linesUp_trimEnd (hfit line (List.mem_cons_of_mem header hline))

/-! ## Listings -/

section Listings

open Calendar

theorem forall₂_of_mapM_some {α β : Type} {f : α → Option β} {items : List α}
    (hsome : ∀ item ∈ items, (f item).isSome) :
    ∃ results, items.mapM f = some results ∧
      List.Forall₂ (fun item result => f item = some result) items results := by
  induction items with
  | nil => exact ⟨[], rfl, .nil⟩
  | cons first rest ih =>
      obtain ⟨head, hfirst⟩ := Option.isSome_iff_exists.mp (hsome first List.mem_cons_self)
      obtain ⟨tail, hrest, hpairs⟩ :=
        ih fun item hitem => hsome item (List.mem_cons_of_mem first hitem)
      refine ⟨head :: tail, ?_, .cons hfirst hpairs⟩
      simp [List.mapM_cons, hfirst, hrest]

/-- A listing of resources of known age has a line for each of them. -/
theorem listing_linesUp {α : Type} {created : α → Option DateTime} {now : DateTime}
    {cells : α → String → List String} {header : List String} {resources : List α}
    (hages : ∀ resource ∈ resources, (Age.shown? (created resource) now).isSome)
    (hlength : ∀ resource age, (cells resource age).length = header.length) :
    ∃ widths first rest,
      (resources.mapM fun resource =>
        (Age.shown? (created resource) now).map (cells resource)).map (layOut header) =
          some (first :: rest) ∧
      LinesUp widths header first ∧
      List.Forall₂ (fun resource line => ∃ age, Age.shown? (created resource) now = some age ∧
        LinesUp widths (cells resource age) line) resources rest := by
  have hcells : ∀ resource ∈ resources,
      ((Age.shown? (created resource) now).map (cells resource)).isSome := by
    simpa using hages
  obtain ⟨lines, hlines, hpairs⟩ := forall₂_of_mapM_some hcells
  have hlengths : ∀ line ∈ lines, line.length = header.length := by
    intro line hline
    obtain ⟨resource, -, hresource⟩ := exists_of_forall₂ hpairs.flip hline
    obtain ⟨age, -, rfl⟩ := Option.map_eq_some_iff.mp hresource
    exact hlength resource age
  obtain ⟨widths, first, rest, hlayout, hfirst, hrest⟩ := layOut_linesUp hlengths
  refine ⟨widths, first, rest, ?_, hfirst, (forall₂_trans hpairs hrest).imp ?_⟩
  · rw [hlines, Option.map_some, hlayout]
  · rintro resource line ⟨_, hresource, hline⟩
    obtain ⟨age, hage, rfl⟩ := Option.map_eq_some_iff.mp hresource
    exact ⟨age, hage, hline⟩

theorem length_withNamespace (everywhere : Bool) {ns ns' : String} {cells cells' : List String}
    (hlength : cells.length = cells'.length) :
    (withNamespace everywhere ns cells).length = (withNamespace everywhere ns' cells').length := by
  cases everywhere with
  | false => exact hlength
  | true => exact congrArg Nat.succ hlength

/-- The lines of a listing line up, the header with them, and give back the cells of the resources
one by one.  A listing needs ages that have a meaning. -/
theorem listings_line_up (everywhere : Bool) (now : DateTime) :
    (∀ ats : List At, (∀ resource ∈ ats, (Age.shown? resource.metadata.created now).isSome) →
      ∃ widths header lines, atListing? everywhere now ats = some (header :: lines) ∧
        LinesUp widths
          (withNamespace everywhere "NAMESPACE" ["NAME", "SCHEDULE", "COMMAND", "PHASE", "AGE"])
          header ∧
        List.Forall₂ (fun resource line =>
          ∃ age, Age.shown? resource.metadata.created now = some age ∧
            LinesUp widths (withNamespace everywhere resource.metadata.ns
              [resource.metadata.name, resource.spec.schedule, resource.spec.command,
                resource.phase, age]) line) ats lines) ∧
    ∀ tasks : List Task, (∀ task ∈ tasks, (Age.shown? task.metadata.created now).isSome) →
      ∃ widths header lines, taskListing? everywhere now tasks = some (header :: lines) ∧
        LinesUp widths
          (withNamespace everywhere "NAMESPACE" ["NAME", "AT", "PHASE", "REASON", "AGE"])
          header ∧
        List.Forall₂ (fun task line =>
          ∃ age, Age.shown? task.metadata.created now = some age ∧
            LinesUp widths (withNamespace everywhere task.metadata.ns
              [task.metadata.name, (task.metadata.controllerOwner?.map (·.name)).getD "<none>",
                task.status.phase.text, task.status.reason.getD "", age]) line) tasks lines :=
  ⟨fun _ hages => listing_linesUp hages fun _ _ => length_withNamespace everywhere rfl,
    fun _ hages => listing_linesUp hages fun _ _ => length_withNamespace everywhere rfl⟩

theorem listings_line_up_of_unequal_names :
    let now : DateTime := ⟨⟨2026, 10, 19⟩, 12, 0, 0, 0, some 0⟩
    let short := At.mk { name := "web", ns := "team" } ⟨"2026-10-19T12:00:00Z", "date "⟩ "DONE"
    let long := At.mk
      { name := "web-at-night", ns := "default", created := some { now with hour := 9 } }
      ⟨"2026-10-19T22:30:00Z", "echo good night"⟩ "PENDING"
    (∀ resource ∈ [short, long], (Age.shown? resource.metadata.created now).isSome) ∧
      ∃ widths header first second,
        atListing? true now [short, long] = some [header, first, second] ∧
        LinesUp widths ["NAMESPACE", "NAME", "SCHEDULE", "COMMAND", "PHASE", "AGE"] header ∧
        LinesUp widths ["team", "web", "2026-10-19T12:00:00Z", "date ", "DONE", "<unknown>"]
          first ∧
        LinesUp widths ["default", "web-at-night", "2026-10-19T22:30:00Z", "echo good night",
          "PENDING", "3h"] second := by
  intro now short long
  have hlong : Age.shown? long.metadata.created now = some "3h" := by decide +kernel
  have hages : ∀ resource ∈ [short, long],
      (Age.shown? resource.metadata.created now).isSome := by
    intro resource hresource
    rcases List.mem_pair.mp hresource with rfl | rfl
    · rfl
    · rw [hlong]
      rfl
  obtain ⟨widths, header, lines, hlisting, hheader, hlines⟩ :=
    (listings_line_up true now).1 [short, long] hages
  obtain ⟨first, rest, ⟨age, hage, hfirst⟩, hrest, rfl⟩ := List.forall₂_cons_left_iff.mp hlines
  obtain ⟨second, rest, ⟨age', hage', hsecond⟩, hnone, rfl⟩ := List.forall₂_cons_left_iff.mp hrest
  obtain rfl := List.forall₂_nil_left_iff.mp hnone
  obtain rfl : "<unknown>" = age := Option.some.inj hage
  obtain rfl : "3h" = age' := Option.some.inj (hlong.symm.trans hage')
  exact ⟨hages, widths, header, first, second, hlisting, hheader, hfirst, hsecond⟩

end Listings

end OneShot.Table

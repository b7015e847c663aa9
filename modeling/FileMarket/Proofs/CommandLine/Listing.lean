import FileMarket.Proofs.CommandLine.Opening
import FileMarket.Proofs.Filter.Tags

/-!
# What a listing prints

A section is printed as a table under the filters and the sort that are asked for. `Listed` says
which table that is, and `ListFault` when there is none and what is said instead, one rule for each
reason. Every run ends in the one way or the other (`list_ends`). A filter argument counts as it is
written: a tag in other letters is one that the grid takes and the listing does not.
-/

set_option autoImplicit false

namespace FileMarket

open Text

/-! ## What is asked for -/

/-- Whether a filter argument is taken as it is written: it is blank, or it is letter by letter the
tag of an option of a control that the section has. -/
def Layout.Takes (layout : Layout) (argument : FilterField × String) : Prop :=
  trim argument.2 = "" ∨
    layout.showsFilter argument.1 = true ∧ trim argument.2 ∈ argument.1.options.map Prod.fst

instance (layout : Layout) (argument : FilterField × String) : Decidable (layout.Takes argument) :=
  inferInstanceAs (Decidable (_ ∨ _))

/-- The sort that is asked for: that of the layout unless a column or the direction is given. -/
def Layout.askedSort (layout : Layout) : Option String → Bool → Outcome SortSpec
  | none, false => .ok layout.defaultSort
  | none, true => .ok (.descending layout.defaultSort.column)
  | some text, descending => (Column.parse text).map fun column =>
      if descending then .descending column else .ascending column

namespace CommandLine

section Spec

variable (answer : Section → Outcome (List FileRecord)) (target : String)
  (filters : List (FilterField × String)) (column : Option String) (descending : Bool)

/-- The grid whose table is printed: the listing under the criteria and the sort that are asked for.
Where a control is given twice the last one counts. -/
structure Listed (grid : Grid) : Prop where
  target : Section.parse target = .ok grid.current
  records : answer grid.current = .ok grid.records
  taken : ∀ argument ∈ filters, grid.layout.Takes argument
  criteria : ∀ field, grid.criteria.tag field = ((filters.reverse.lookup field).map trim).getD ""
  sort : grid.layout.askedSort column descending = .ok grid.sort
  sortShown : grid.layout.showsColumn grid.sort.column = true

/-- The line of status after a filter argument: a refusal of the grid shows until the next. -/
def told (shown : Section) (status : String) (argument : FilterField × String) : String :=
  match (Grid.new shown).setFilter argument.1 argument.2 with
  | .ok _ => status
  | .error error => error.message

/-- Why nothing is printed. The first reason counts. -/
inductive ListFault : Fault → Prop where
  | unknownSection {error : MarketError} (hsection : Section.parse target = .error error) :
      ListFault (.refused error)
  | notLoaded {shown : Section} {error : MarketError} (hsection : Section.parse target = .ok shown)
      (hanswer : answer shown = .error error) : ListFault (.notLoaded shown error)
  /-- A filter that the grid refuses. -/
  | refusedFilter {shown : Section} {records : List FileRecord}
      {before after : List (FilterField × String)} {field : FilterField} {tag : String}
      {error : MarketError} (hsection : Section.parse target = .ok shown)
      (hanswer : answer shown = .ok records) (hfilters : filters = before ++ (field, tag) :: after)
      (hbefore : ∀ argument ∈ before, shown.layout.Takes argument)
      (huntaken : ¬ shown.layout.Takes (field, tag))
      (hrefused : (Grid.new shown).setFilter field tag = .error error) :
      ListFault (.told error.message)
  /-- A filter that the grid takes, but whose tag is written in other letters. -/
  | respelledFilter {shown : Section} {records : List FileRecord}
      {before after : List (FilterField × String)} {field : FilterField} {tag : String}
      {grid : Grid}
      (hsection : Section.parse target = .ok shown)
      (hanswer : answer shown = .ok records) (hfilters : filters = before ++ (field, tag) :: after)
      (hbefore : ∀ argument ∈ before, shown.layout.Takes argument)
      (huntaken : ¬ shown.layout.Takes (field, tag))
      (haccepted : (Grid.new shown).setFilter field tag = .ok grid) :
      ListFault (.told (before.foldl (told shown) (Desk.listing shown records).status))
  | unknownColumn {shown : Section} {records : List FileRecord} {error : MarketError}
      (hsection : Section.parse target = .ok shown) (hanswer : answer shown = .ok records)
      (htaken : ∀ argument ∈ filters, shown.layout.Takes argument)
      (hsort : shown.layout.askedSort column descending = .error error) :
      ListFault (.refused error)
  | hiddenColumn {shown : Section} {records : List FileRecord} {spec : SortSpec}
      {error : MarketError} (hsection : Section.parse target = .ok shown)
      (hanswer : answer shown = .ok records)
      (htaken : ∀ argument ∈ filters, shown.layout.Takes argument)
      (hsort : shown.layout.askedSort column descending = .ok spec)
      (hrefused : (Grid.new shown).setSort spec = .error error) :
      ListFault (.told error.message)

end Spec

end CommandLine

/-! ## Filters -/

/-- Sets one control of a section by a tag. -/
def Section.setControl (shown : Section) (criteria : Criteria) (field : FilterField)
    (tag : String) : Outcome Criteria :=
  if shown.layout.showsFilter field then criteria.set field tag
  else .error (.unavailable (shown.label ++ " has no " ++ field.label ++ " filter"))

theorem Grid.setFilter_eq (grid : Grid) (field : FilterField) (tag : String) :
    grid.setFilter field tag = (grid.current.setControl grid.criteria field tag).map
      fun criteria => { grid with criteria := criteria, selection := grid.selection.settle } := by
  unfold setFilter Section.setControl layout
  cases grid.current.layout.showsFilter field <;> rfl

/-- Whether the grid refuses a tag depends on the section alone. -/
theorem Section.setControl_eq_error_iff {shown : Section} (criteria : Criteria)
    {field : FilterField} {tag : String} {error : MarketError} :
    shown.setControl criteria field tag = .error error ↔
      (Grid.new shown).setFilter field tag = .error error := by
  rw [Grid.setFilter_eq]
  unfold setControl
  show _ ↔ (if shown.layout.showsFilter field then Criteria.none.set field tag else _).map _ = _
  cases shown.layout.showsFilter field with
  | false => simp [Except.map, Grid.new]
  | true =>
    simp only [if_true, Criteria.set_eq_error_iff criteria .none]
    cases Criteria.none.set field tag <;> simp [Except.map]

/-- The criteria after a filter argument: a refusal leaves them. -/
def Section.narrow (shown : Section) (criteria : Criteria) (argument : FilterField × String) :
    Criteria :=
  match shown.setControl criteria argument.1 argument.2 with
  | .ok criteria => criteria
  | .error _ => criteria

/-- The controls that a section lacks are not set. -/
def Criteria.Within (criteria : Criteria) (layout : Layout) : Prop :=
  ∀ field, layout.showsFilter field = false → criteria.tag field = ""

theorem Criteria.within_none (layout : Layout) : Criteria.none.Within layout :=
  fun field _ => by cases field <;> rfl

section Narrow

variable {shown : Section} {criteria : Criteria}

/-- What is taken leaves its control at the text as it is written. -/
theorem Layout.Takes.tag_narrow {field : FilterField} {tag : String}
    (h : shown.layout.Takes (field, tag)) (hwithin : criteria.Within shown.layout) :
    (shown.narrow criteria (field, tag)).tag field = trim tag ∧
      ∀ other, other ≠ field →
        (shown.narrow criteria (field, tag)).tag other = criteria.tag other := by
  unfold Section.narrow Section.setControl
  cases hshown : shown.layout.showsFilter field with
  | true =>
    have hliteral : trim tag = "" ∨ trim tag ∈ field.options.map Prod.fst :=
      h.imp_right And.right
    obtain ⟨criteria', hset, htag⟩ := (criteria.set_literal_iff field tag).2 hliteral
    simp only [if_true, hset]
    exact ⟨htag, fun other => Criteria.tag_of_set hset⟩
  | false =>
    -- The section lacks the control, so the text is blank, and so is what the control shows.
    rcases h with hblank | ⟨hshows, -⟩
    · exact ⟨(hwithin field hshown).trans hblank.symm, fun _ _ => rfl⟩
    · rw [hshown] at hshows
      cases hshows

theorem Layout.Takes.within_narrow {argument : FilterField × String}
    (h : shown.layout.Takes argument) (hwithin : criteria.Within shown.layout) :
    (shown.narrow criteria argument).Within shown.layout := by
  intro other hlacks
  obtain ⟨field, tag⟩ := argument
  obtain ⟨htag, hother⟩ := h.tag_narrow hwithin
  by_cases heq : other = field
  · subst heq
    rcases h with hblank | ⟨hshows, -⟩
    · exact htag.trans hblank
    · exact absurd hshows (by simp [hlacks])
  · exact (hother other heq).trans (hwithin other hlacks)

/-- Filter arguments that are taken leave their tags in the controls; of two for one control it is
the last. -/
theorem tag_foldl_narrow (filters : List (FilterField × String))
    (htaken : ∀ argument ∈ filters, shown.layout.Takes argument)
    (hwithin : criteria.Within shown.layout) :
    (filters.foldl shown.narrow criteria).Within shown.layout ∧
      ∀ field, (filters.foldl shown.narrow criteria).tag field =
        ((filters.reverse.lookup field).map trim).getD (criteria.tag field) := by
  induction filters generalizing criteria with
  | nil => exact ⟨hwithin, fun _ => rfl⟩
  | cons argument filters ih =>
    obtain ⟨htakes, htaken⟩ := List.forall_mem_cons.1 htaken
    obtain ⟨hwithin', htags⟩ := ih htaken (htakes.within_narrow hwithin)
    refine ⟨hwithin', fun other => ?_⟩
    obtain ⟨field, tag⟩ := argument
    obtain ⟨htag, hother⟩ := htakes.tag_narrow hwithin
    rw [List.foldl_cons, htags, List.reverse_cons, List.lookup_append]
    by_cases heq : other = field
    · subst heq
      cases filters.reverse.lookup other <;> simp [htag]
    · have hne : (other == field) = false := beq_false_of_ne heq
      cases filters.reverse.lookup other <;> simp [List.lookup_cons, hne, hother other heq]

end Narrow

/-- What is not taken leaves its control at another text than the one that is written. -/
theorem Layout.tag_narrow_ne {shown : Section} {argument : FilterField × String}
    (h : ¬ shown.layout.Takes argument) {criteria : Criteria}
    (hwithin : criteria.Within shown.layout) :
    (shown.narrow criteria argument).tag argument.1 ≠ trim argument.2 := by
  intro htag
  cases hshown : shown.layout.showsFilter argument.1 with
  | true =>
    have hliteral := (shown.narrow criteria argument).tag_eq_or_mem argument.1
    rw [htag] at hliteral
    exact h (hliteral.imp_right fun hmem => ⟨hshown, hmem⟩)
  | false =>
    -- A control that the section lacks is never set.
    have hkept : shown.narrow criteria argument = criteria := by
      simp [Section.narrow, Section.setControl, hshown]
    rw [hkept] at htag
    exact h (.inl (htag.symm.trans (hwithin argument.1 hshown)))

/-- The first filter argument that is not taken. -/
theorem Layout.exists_first {layout : Layout} {filters : List (FilterField × String)}
    (h : ¬ ∀ argument ∈ filters, layout.Takes argument) :
    ∃ before argument after, filters = before ++ argument :: after ∧ ¬ layout.Takes argument ∧
      ∀ argument ∈ before, layout.Takes argument := by
  induction filters with
  | nil => exact absurd (fun _ hmem => by cases hmem) h
  | cons argument filters ih =>
    by_cases htakes : layout.Takes argument
    · obtain ⟨before, first, after, rfl, hfirst, hbefore⟩ :=
        ih fun htaken => h (List.forall_mem_cons.2 ⟨htakes, htaken⟩)
      exact ⟨argument :: before, first, after, rfl, hfirst,
        List.forall_mem_cons.2 ⟨htakes, hbefore⟩⟩
    · exact ⟨[], argument, filters, rfl, htakes, fun _ hmem => by cases hmem⟩

/-- A desk with other criteria and another line of status. -/
def Desk.narrowed (desk : Desk) (criteria : Criteria) (status : String) : Desk :=
  { desk with grid := { desk.grid with criteria := criteria }, status := status }

/-- The refusal to sort by a column that the section lacks. -/
def Section.noColumn (shown : Section) (column : Column) : MarketError :=
  .unavailable (shown.label ++ " has no " ++ column.header ++ " column")

theorem Grid.setSort_new (shown : Section) (spec : SortSpec) :
    (new shown).setSort spec =
      if shown.layout.showsColumn spec.column = true then .ok { new shown with sort := spec }
      else .error (shown.noColumn spec.column) := by
  unfold setSort
  show (if !shown.layout.showsColumn spec.column then _ else _) = _
  cases shown.layout.showsColumn spec.column <;> rfl

/-- A desk whose grid is sorted in another way. -/
def Desk.sorted (desk : Desk) (spec : SortSpec) : Desk :=
  { desk with grid := { desk.grid with sort := spec } }

/-- The step of a filter control at the desk that shows a listing. -/
theorem Desk.handle_setFilter (shown : Section) (records : List FileRecord) (criteria : Criteria)
    (status : String) (today : Date) (argument : FilterField × String) :
    ((listing shown records).narrowed criteria status).handle today
        (.setFilter argument.1 argument.2) =
      ((listing shown records).narrowed (shown.narrow criteria argument)
        (CommandLine.told shown status argument), []) := by
  obtain ⟨field, tag⟩ := argument
  have hgrid := ((listing shown records).narrowed criteria status).grid.setFilter_eq field tag
  unfold Section.narrow CommandLine.told
  show Desk.putGrid _ _ = _
  rw [hgrid]
  show Desk.putGrid _ ((shown.setControl criteria field tag).map _) = _
  cases hcontrol : shown.setControl criteria field tag with
  | error error =>
    rw [(Section.setControl_eq_error_iff criteria).1 hcontrol]
    rfl
  | ok criteria' =>
    cases hnew : (Grid.new shown).setFilter field tag with
    | ok grid => rfl
    | error error =>
      rw [← Section.setControl_eq_error_iff criteria, hcontrol] at hnew
      cases hnew

namespace CommandLine

variable {σ : Type} (client : Client σ) (console : Console σ)

namespace Client

variable (shown : Section) (records : List FileRecord)

/-- One filter argument: the text is compared with what the control shows afterwards. -/
theorem setFilters_run_cons (criteria : Criteria) (status : String)
    (argument : FilterField × String) (rest : List (FilterField × String)) :
    (client.setFilters ((Desk.listing shown records).narrowed criteria status)
        (argument :: rest)).run console =
      if (shown.narrow criteria argument).tag argument.1 ≠ trim argument.2 then
        .error (.told (told shown status argument)) console
      else (client.setFilters ((Desk.listing shown records).narrowed
        (shown.narrow criteria argument) (told shown status argument)) rest).run console := by
  have hstep := Desk.handle_setFilter shown records criteria status client.today argument
  rw [setFilters, run_bind_of_ok (client.perform_run_of_idle console hstep), run_guard]
  rfl

/-- Filter arguments that are taken are set one after the other. -/
theorem setFilters_run_of_taken (before rest : List (FilterField × String)) {criteria : Criteria}
    (status : String) (htaken : ∀ argument ∈ before, shown.layout.Takes argument)
    (hwithin : criteria.Within shown.layout) :
    (client.setFilters ((Desk.listing shown records).narrowed criteria status)
        (before ++ rest)).run console =
      (client.setFilters ((Desk.listing shown records).narrowed
        (before.foldl shown.narrow criteria) (before.foldl (told shown) status))
        rest).run console := by
  induction before generalizing criteria status with
  | nil => rfl
  | cons argument before ih =>
    obtain ⟨htakes, htaken⟩ := List.forall_mem_cons.1 htaken
    have htag : (shown.narrow criteria argument).tag argument.1 = trim argument.2 :=
      (htakes.tag_narrow hwithin).1
    rw [List.cons_append, setFilters_run_cons, if_neg (not_not_intro htag)]
    exact ih (told shown status argument) htaken (htakes.within_narrow hwithin)

/-! ## Sort -/

/-- A table is sorted by a column that the section has, and by no other. -/
theorem sortBy_run (criteria : Criteria) (status : String) (spec : SortSpec) :
    (do
      let desk ← client.perform ((Desk.listing shown records).narrowed criteria status)
        (.setSort spec)
      if desk.grid.sort ≠ spec then throw (.told desk.status)
      return desk : Program σ Desk).run console =
    match (Grid.new shown).setSort spec with
    | .ok _ => .ok (((Desk.listing shown records).narrowed criteria status).sorted spec) console
    | .error error => .error (.told error.message) console := by
  let desk := (Desk.listing shown records).narrowed criteria status
  rw [Grid.setSort_new]
  split_ifs with hshows
  · have hstep : desk.handle client.today (.setSort spec) = (desk.sorted spec, []) := by
      show Desk.putGrid _ (if !shown.layout.showsColumn spec.column then _ else _) = _
      rw [hshows]
      rfl
    rw [run_bind_of_ok (client.perform_run_of_idle console hstep), run_guard]
    exact if_neg (not_not_intro rfl)
  · have hstep : desk.handle client.today (.setSort spec) =
        desk.refuse (shown.noColumn spec.column) := by
      show Desk.putGrid _ (if !shown.layout.showsColumn spec.column then _ else _) = _
      rw [Bool.eq_false_iff.2 hshows]
      rfl
    -- The column that the table is sorted by at first is one that the section has.
    have hne : shown.layout.defaultSort ≠ spec := by
      rintro rfl
      exact hshows (Grid.showsColumn_defaultSort shown)
    rw [run_bind_of_ok (client.perform_run_of_idle console hstep), run_guard]
    exact if_pos hne

/-- The sort that is asked for is carried out. -/
theorem setSort_run (criteria : Criteria) (status : String) (column : Option String)
    (descending : Bool) :
    (client.setSort ((Desk.listing shown records).narrowed criteria status) column
        descending).run console =
      match shown.layout.askedSort column descending with
      | .error error => .error (.refused error) console
      | .ok spec => match (Grid.new shown).setSort spec with
        | .ok _ => .ok (((Desk.listing shown records).narrowed criteria status).sorted spec) console
        | .error error => .error (.told error.message) console := by
  match column, descending with
  | none, false =>
    simp only [Layout.askedSort, Grid.setSort_new, Grid.showsColumn_defaultSort, if_true]
    rfl
  | none, true => exact client.sortBy_run console shown records criteria status _
  | some text, descending =>
    have hsort := client.sortBy_run console shown records criteria status
    unfold setSort
    cases hparse : Column.parse text with
    | error error =>
      simp only [Layout.askedSort, hparse]
      rfl
    | ok column =>
      simp only [Layout.askedSort, hparse]
      exact hsort _

/-! ## All runs -/

section Ends

variable {target : String} {filters : List (FilterField × String)} {column : Option String}
  {descending : Bool} {shown : Section} {records : List FileRecord}

/-- A section that is listed is shown under the filters that come first, if these are taken. -/
theorem list_run_of_taken {before rest : List (FilterField × String)}
    (hsection : Section.parse target = .ok shown)
    (hanswer : client.answerTo shown console = .ok records) (hfilters : filters = before ++ rest)
    (htaken : ∀ argument ∈ before, shown.layout.Takes argument) :
    (client.list target filters column descending).run console =
      (do
        let desk ← client.setFilters ((Desk.listing shown records).narrowed
          (before.foldl shown.narrow .none)
          (before.foldl (told shown) (Desk.listing shown records).status)) rest
        let desk ← client.setSort desk column descending
        printLine (table desk.grid client.today) : Program σ Unit).run
          (client.listedConsole shown console) := by
  have hopen := client.openDesk_run shown console
  rw [hanswer] at hopen
  have hset := client.setFilters_run_of_taken (client.listedConsole shown console) shown records
    before rest (Desk.listing shown records).status htaken (Criteria.within_none shown.layout)
  subst hfilters
  unfold list
  rw [hsection]
  exact (run_bind_of_ok hopen).trans (run_bind_congr hset _)

/-- The same, up to the point at which the table is sorted. -/
theorem list_run_of_all_taken (hsection : Section.parse target = .ok shown)
    (hanswer : client.answerTo shown console = .ok records)
    (htaken : ∀ argument ∈ filters, shown.layout.Takes argument) :
    (client.list target filters column descending).run console =
      (do
        let desk ← client.setSort ((Desk.listing shown records).narrowed
          (filters.foldl shown.narrow .none)
          (filters.foldl (told shown) (Desk.listing shown records).status)) column descending
        printLine (table desk.grid client.today) : Program σ Unit).run
          (client.listedConsole shown console) :=
  client.list_run_of_taken console hsection hanswer (List.append_nil filters).symm htaken

/-- A table shows the section, the records, the criteria and the sort of a grid. -/
theorem table_congr {grid grid' : Grid} (hcurrent : grid.current = grid'.current)
    (hrecords : grid.records = grid'.records) (hcriteria : grid.criteria = grid'.criteria)
    (hsort : grid.sort = grid'.sort) (today : Date) : table grid today = table grid' today := by
  simp only [table, Grid.rows, Grid.layout, hcurrent, hrecords, hcriteria, hsort]

/-- The table that is asked for is printed. -/
theorem list_run_of_listed {grid : Grid}
    (h : Listed (client.answerTo · console) target filters column descending grid) :
    (client.list target filters column descending).run console =
      .ok () ((client.listedConsole grid.current console).printing
        (table grid client.today ++ "\n")) := by
  have hcriteria : filters.foldl grid.current.narrow .none = grid.criteria := by
    refine Criteria.eq_of_tag_eq fun field => ?_
    rw [(tag_foldl_narrow filters h.taken (Criteria.within_none _)).2, h.criteria]
    cases field <;> rfl
  have hsort := client.setSort_run (client.listedConsole grid.current console) grid.current
    grid.records grid.criteria
    (filters.foldl (told grid.current) (Desk.listing grid.current grid.records).status)
    column descending
  have hshows : grid.current.layout.showsColumn grid.sort.column = true := h.sortShown
  rw [show grid.current.layout.askedSort column descending = _ from h.sort] at hsort
  simp only [Grid.setSort_new, if_pos hshows] at hsort
  rw [client.list_run_of_all_taken console h.target h.records h.taken, hcriteria,
    run_bind_of_ok hsort]
  exact congrArg (fun text => EStateM.Result.ok ()
      ((client.listedConsole grid.current console).printing (text ++ "\n")))
    (table_congr rfl rfl rfl rfl client.today)

/-- The first filter argument that is not taken ends the run, with the line of status that it
leaves. -/
theorem list_run_of_untaken {before after : List (FilterField × String)}
    {argument : FilterField × String} (hsection : Section.parse target = .ok shown)
    (hanswer : client.answerTo shown console = .ok records)
    (hfilters : filters = before ++ argument :: after)
    (hbefore : ∀ argument ∈ before, shown.layout.Takes argument)
    (huntaken : ¬ shown.layout.Takes argument) :
    (client.list target filters column descending).run console =
      .error (.told (told shown
        (before.foldl (told shown) (Desk.listing shown records).status) argument))
        (client.listedConsole shown console) := by
  have hwithin := (tag_foldl_narrow before hbefore (Criteria.within_none shown.layout)).1
  have hrun := client.setFilters_run_cons (client.listedConsole shown console) shown records
    (before.foldl shown.narrow .none)
    (before.foldl (told shown) (Desk.listing shown records).status) argument after
  rw [if_pos (Layout.tag_narrow_ne huntaken hwithin)] at hrun
  rw [client.list_run_of_taken console hsection hanswer hfilters hbefore]
  exact run_bind_of_error hrun

/-- Where there is a reason against it nothing is printed, and the run fails with this reason. -/
theorem list_run_of_fault {fault : Fault}
    (h : ListFault (client.answerTo · console) target filters column descending fault) :
    ∃ console', (client.list target filters column descending).run console =
      .error fault console' ∧ console'.printed = console.printed := by
  cases h with
  | unknownSection hsection =>
    refine ⟨console, ?_, rfl⟩
    unfold list
    rw [hsection]
    rfl
  | @notLoaded shown _ hsection hanswer =>
    have hopen := client.openDesk_run shown console
    rw [hanswer] at hopen
    refine ⟨client.listedConsole shown console, ?_, rfl⟩
    unfold list
    rw [hsection]
    exact (run_bind_of_ok rfl).trans (run_bind_of_error hopen)
  | @refusedFilter shown _ _ _ field tag _ hsection hanswer hfilters hbefore huntaken hrefused =>
    refine ⟨client.listedConsole shown console, ?_, rfl⟩
    rw [client.list_run_of_untaken console hsection hanswer hfilters hbefore huntaken, told,
      hrefused]
  | @respelledFilter shown _ _ _ field tag _ hsection hanswer hfilters hbefore huntaken haccepted =>
    refine ⟨client.listedConsole shown console, ?_, rfl⟩
    rw [client.list_run_of_untaken console hsection hanswer hfilters hbefore huntaken, told,
      haccepted]
  | @unknownColumn shown _ _ hsection hanswer htaken hsort =>
    refine ⟨client.listedConsole shown console, ?_, rfl⟩
    rw [client.list_run_of_all_taken console hsection hanswer htaken]
    apply run_bind_of_error
    rw [setSort_run, hsort]
  | @hiddenColumn shown _ _ _ hsection hanswer htaken hsort hrefused =>
    refine ⟨client.listedConsole shown console, ?_, rfl⟩
    rw [client.list_run_of_all_taken console hsection hanswer htaken]
    apply run_bind_of_error
    simp only [setSort_run, hsort, hrefused]

/-- There is a table to print or a reason against it. -/
theorem listed_or_fault (answer : Section → Outcome (List FileRecord)) (target : String)
    (filters : List (FilterField × String)) (column : Option String) (descending : Bool) :
    (∃ grid, Listed answer target filters column descending grid) ∨
      ∃ fault, ListFault answer target filters column descending fault := by
  cases hsection : Section.parse target with
  | error error => exact .inr ⟨_, .unknownSection hsection⟩
  | ok shown =>
  cases hanswer : answer shown with
  | error error => exact .inr ⟨_, .notLoaded hsection hanswer⟩
  | ok records =>
  by_cases htaken : ∀ argument ∈ filters, shown.layout.Takes argument
  · cases hsort : shown.layout.askedSort column descending with
    | error error => exact .inr ⟨_, .unknownColumn hsection hanswer htaken hsort⟩
    | ok spec =>
      by_cases hshows : shown.layout.showsColumn spec.column = true
      · have htags := (tag_foldl_narrow filters htaken (Criteria.within_none shown.layout)).2
        exact .inl ⟨{ Grid.new shown with
            records := records
            criteria := filters.foldl shown.narrow .none
            sort := spec }, hsection, hanswer, htaken,
          fun field => (htags field).trans (by cases field <;> rfl), hsort, hshows⟩
      · have hrefused := (Grid.setSort_new shown spec).trans (if_neg hshows)
        exact .inr ⟨_, .hiddenColumn hsection hanswer htaken hsort hrefused⟩
  · obtain ⟨before, ⟨field, tag⟩, after, rfl, huntaken, hbefore⟩ := Layout.exists_first htaken
    cases hgrid : (Grid.new shown).setFilter field tag with
    | error error =>
      exact .inr ⟨_, .refusedFilter hsection hanswer rfl hbefore huntaken hgrid⟩
    | ok grid => exact .inr ⟨_, .respelledFilter hsection hanswer rfl hbefore huntaken hgrid⟩

end Ends

/-- A listing prints the table that is asked for, and nothing else, exactly if there is one: the
section is known and could be listed, every filter argument is taken as it is written, and the
column is one that the section has. It fails exactly if there is a reason against it; it says the
first such reason and prints nothing. -/
theorem list_ends (target : String) (filters : List (FilterField × String))
    (column : Option String) (descending : Bool) :
    (∀ console', (client.list target filters column descending).run console = .ok () console' ↔
      ∃ grid, Listed (client.answerTo · console) target filters column descending grid ∧
        console' = (client.listedConsole grid.current console).printing
          (table grid client.today ++ "\n")) ∧
    ∀ fault, (∃ console', (client.list target filters column descending).run console =
        .error fault console' ∧ console'.printed = console.printed) ↔
      ListFault (client.answerTo · console) target filters column descending fault := by
  constructor
  · intro console'
    constructor
    · intro hrun
      rcases listed_or_fault (client.answerTo · console) target filters column descending with
        ⟨grid, hgrid⟩ | ⟨fault, hfault⟩
      · have hlisted := client.list_run_of_listed console hgrid
        exact ⟨grid, hgrid, (EStateM.Result.ok.inj (hrun.symm.trans hlisted)).2⟩
      · obtain ⟨console'', hfails, -⟩ := client.list_run_of_fault console hfault
        cases hrun.symm.trans hfails
    · rintro ⟨grid, hgrid, rfl⟩
      exact client.list_run_of_listed console hgrid
  · intro fault
    constructor
    · rintro ⟨console', hrun, -⟩
      rcases listed_or_fault (client.answerTo · console) target filters column descending with
        ⟨grid, hgrid⟩ | ⟨fault', hfault⟩
      · cases hrun.symm.trans (client.list_run_of_listed console hgrid)
      · obtain ⟨console'', hfails, -⟩ := client.list_run_of_fault console hfault
        obtain ⟨rfl, -⟩ := EStateM.Result.error.inj (hrun.symm.trans hfails)
        exact hfault
    · exact client.list_run_of_fault console

/-- A node with one song in every section. -/
def songShelf : Node Unit := fun call _ => match call with
  | .list _ => (.ok [.bare "f1" "song.mp3"], ())
  | .wallet => (.ok ⟨none, .zero, .zero⟩, ())
  | .findProviders _ => (.ok [], ())
  | .add _ _ | .delete _ _ | .requestMetadata _ _ | .download _ _ _ =>
    (.error (.transport "refused"), ())

/-- The grid takes the tag of a size in capitals, but a listing fails for it and says how many files
there are. The grid refuses a blank tag for a control that the section lacks, but a listing prints
its table. -/
theorem listing_disobeys_grid :
    let client : Client Unit := ⟨songShelf, default⟩
    let console : Console Unit := .start ⟨(), .absent ""⟩ []
    ((∃ grid, (Grid.new .storing).setFilter .size "LESS1MB" = .ok grid) ∧
      ∃ console', (client.list "storing" [(.size, "LESS1MB")] none false).run console =
        .error (.told "1 files in Storing") console' ∧ console'.printed = "") ∧
    (∃ error, (Grid.new .purchased).setFilter .downloads "" = .error error) ∧
      ∃ console', (client.list "purchased" [(.downloads, "")] none false).run console =
        .ok () console' := by
  intro client console
  have haccepted : (Grid.new .storing).setFilter .size "LESS1MB" =
      .ok { Grid.new .storing with criteria := { Criteria.none with size := some .under1MB } } := by
    decide
  have hrefused : (Grid.new .purchased).setFilter .downloads "" =
      .error (.unavailable "Purchased has no Downloads filter") := by decide
  have hstoring : Section.parse "storing" = .ok .storing := by decide
  have hpurchased : Section.parse "purchased" = .ok .purchased := by decide
  have huntaken : ¬ Section.storing.layout.Takes (.size, "LESS1MB") := by decide
  have htaken : ∀ argument ∈ [(FilterField.downloads, "")],
      Section.purchased.layout.Takes argument := by decide
  have hfilters : [(FilterField.size, "LESS1MB")] = [] ++ (.size, "LESS1MB") :: [] := rfl
  refine ⟨⟨⟨_, haccepted⟩, ?_⟩, ⟨_, hrefused⟩, ?_⟩
  · have hanswer : client.answerTo .storing console = .ok [.bare "f1" "song.mp3"] := rfl
    have hstatus : (Desk.listing .storing [.bare "f1" "song.mp3"]).status =
        "1 files in Storing" := by decide
    rw [← hstatus]
    exact client.list_run_of_fault console (.respelledFilter hstoring hanswer hfilters
      (fun _ hmem => by cases hmem) huntaken haccepted)
  · have hlisted : Listed (client.answerTo · console) "purchased" [(.downloads, "")] none false
        { Grid.new .purchased with records := [.bare "f1" "song.mp3"] } :=
      ⟨hpurchased, rfl, htaken, fun field => by cases field <;> decide, rfl, rfl⟩
    exact ⟨_, client.list_run_of_listed console hlisted⟩

end Client

end CommandLine

end FileMarket

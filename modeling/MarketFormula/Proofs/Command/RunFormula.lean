import MarketFormula.Command.RunFormula
import MarketFormula.Proofs.Evaluation.Decision
import MarketFormula.Proofs.Market.Library

/-!
# What the command for one formula leaves behind

The formula is evaluated once for the last bar and once for all bars. Both fail or neither does,
and the last row that is written is the trigger that is printed.
-/
namespace MarketFormula

namespace Json

/-- A text that is written between quotation marks as it is. -/
def IsUnescaped (s : String) : Prop :=
  ∀ c ∈ s.toList, escapeChar c = [c]

lemma IsUnescaped.append {s t : String} (hs : IsUnescaped s) (ht : IsUnescaped t) :
    IsUnescaped (s ++ t) := by
  intro c hc
  rw [String.toList_append, List.mem_append] at hc
  exact hc.elim (hs c) (ht c)

lemma IsUnescaped.writeText_eq {s : String} (h : IsUnescaped s) :
    writeText s = "\x22" ++ s ++ "\x22" := by
  have hsame : s.toList.flatMap escapeChar = s.toList := by
    rw [List.flatMap_congr h]
    exact List.flatMap_singleton' _
  rw [← String.toList_inj, writeText, hsame]
  simp

lemma isUnescaped_of_isPlainCell {s : String} (h : IsPlainCell s) : IsUnescaped s := by
  intro c hc
  have hplain := h c hc
  have hspecial : ∀ special ∈ ['\x22', '\\', '\n', '\r', '\t', '\x08', '\x0c'],
      ¬ (special.isAlphanum = true ∨ special = '-') := by
    simp
  have hne : ∀ special ∈ ['\x22', '\\', '\n', '\r', '\t', '\x08', '\x0c'], c ≠ special := by
    rintro special hmem rfl
    exact hspecial c hmem hplain
  have hlarge : ¬ c.toNat < 0x20 := by
    intro hsmall
    obtain hletter | rfl := hplain
    · simp [Char.isAlphanum, Char.isAlpha, Char.isUpper, Char.isLower, Char.isDigit,
        UInt32.le_iff_toNat_le] at hletter hsmall
      omega
    · exact absurd hsmall (by decide)
  simp only [List.forall_mem_cons] at hne
  obtain ⟨hquote, hslash, hline, hreturn, htab, hback, hfeed, -⟩ := hne
  simp only [escapeChar, hquote, hslash, hline, hreturn, htab, hback, hfeed, hlarge, or_self,
    if_false]

end Json

namespace Command.RunFormula

section Printing

/-- A result as it is printed, with each field on a line of its own. -/
def printedLines (result : TriggerResult) : List String :=
  ["\x7b",
    "  \x22triggered\x22: " ++ (if result.triggered then "true" else "false") ++ ",",
    "  \x22index\x22: " ++ toString result.index ++ ",",
    "  \x22date\x22: \x22" ++ result.date ++ "\x22,",
    "  \x22explain\x22: \x22" ++ result.explanation ++ "\x22",
    "\x7d"]

lemma printResult_eq {result : TriggerResult} (hdate : Json.IsUnescaped result.date)
    (hexplanation : Json.IsUnescaped result.explanation) :
    printResult result = "\n".intercalate (printedLines result) := by
  have hname : ∀ name ∈ ["triggered", "index", "date", "explain"],
      Json.writeText name = "\x22" ++ name ++ "\x22" := by
    decide +kernel
  simp only [List.forall_mem_cons] at hname
  obtain ⟨htriggered, hindex, hday, hexplain, -⟩ := hname
  simp only [printResult, Json.writeBlock, Json.writeFields, Json.write, htriggered, hindex, hday,
    hexplain, hdate.writeText_eq, hexplanation.writeText_eq, printedLines, List.map_cons,
    List.map_nil, String.intercalate_cons_cons, String.intercalate_singleton]
  rw [← String.toList_inj]
  cases result.triggered <;> simp

lemma isUnescaped_of_evaluate {series : Series Float} {days : List CalendarDate} {formula : Datum}
    {result : TriggerResult} (hdays : series.Follows days)
    (h : series.evaluate formula = .ok result) :
    Json.IsUnescaped result.date ∧ Json.IsUnescaped result.explanation := by
  have htexts : Json.IsUnescaped "" ∧ Json.IsUnescaped "no data" ∧
      Json.IsUnescaped "triggered at " ∧ Json.IsUnescaped "not triggered" := by
    simp [Json.IsUnescaped, Json.escapeChar]
  obtain ⟨hempty, hnone, htriggered, hnot⟩ := htexts
  obtain rfl | ⟨text, last, triggered, -, hlast, rfl⟩ := Series.evaluate_cases h
  · exact ⟨hempty, hnone⟩
  · have hdate : Json.IsUnescaped last.date :=
      Json.isUnescaped_of_isPlainCell
        (hdays.isPlainCell _ (List.mem_map_of_mem (List.mem_of_getLast? hlast)))
    refine ⟨hdate, ?_⟩
    cases triggered with
    | true => exact htriggered.append hdate
    | false => exact hnot

end Printing

section Export

/-- The lines of a table of signals, one for each date behind that of the names. -/
def exportedLines (dates : List String) (signals : List Bool) : List String :=
  "date,signal" :: List.zipWith (fun date b => date ++ (if b then ",1" else ",0")) dates signals

lemma text_signalColumn (dates : List String) (signals : List Bool) :
    (signalColumn dates signals).text =
      String.join ((exportedLines dates signals).map (· ++ "\n")) := by
  have hrow : ∀ (date : String) (b : Bool),
      date ++ "," ++ toString (if b then 1 else 0 : Int) ++ "\n" =
        date ++ (if b then ",1" else ",0") ++ "\n" := by
    intro date b
    have hbit : "," ++ toString (if b then 1 else 0 : Int) = if b then ",1" else ",0" := by
      cases b <;> rfl
    rw [String.append_assoc, ← hbit, ← String.append_assoc, ← String.append_assoc]
  have hrows : (dates.zip (signals.map fun b => if b then (1 : Int) else 0)).map
      (fun entry => entry.1 ++ "," ++ toString entry.2 ++ "\n") =
      (List.zipWith (fun date b => date ++ (if b then ",1" else ",0")) dates signals).map
        (· ++ "\n") := by
    rw [List.zip_map_right, List.map_map, ← List.map_uncurry_zip_eq_zipWith, List.map_map]
    exact List.map_congr_left fun entry _ => hrow entry.1 entry.2
  rw [LabelledColumn.text, signalColumn, hrows, exportedLines, List.map_cons, String.join_cons]
  rfl

lemma isPlain_signalColumn {dates : List String} (h : ∀ date ∈ dates, IsPlainCell date)
    (signals : List Bool) : (signalColumn dates signals).IsPlain where
  labelName := by simp [signalColumn, IsPlainCell]
  name := by simp [signalColumn, IsPlainCell]
  labels entry hentry := h entry.1 (List.of_mem_zip hentry).1

end Export

section Execution

variable {F : Type} {library : Library F} {files : F} {options : Options} {threshold : Datum}
  {series : Series Float} {result : TriggerResult} {signals : List Bool}

lemma exists_follows_of_load (hreader : library.readDate.WritesDays) {path : String} {count : Int}
    (h : load library files path count = .ok series) : ∃ days, series.Follows days := by
  simp only [load, bind_eq_ok_iff] at h
  obtain ⟨table, -, bars, hbars, htail⟩ := h
  cases htail
  obtain ⟨days, hdays⟩ := table.exists_follows hreader hbars
  exact ⟨_, hdays.tail count⟩

lemma evaluate_of_signal (h : series.evaluate (.text options.formula) = .ok result)
    (hsignal : series.signal (.text options.formula) = .ok signals) :
    evaluate series options = .ok (result, options.exportSignals.map fun _ => signals) := by
  simp only [evaluate, h, hsignal]
  cases options.exportSignals <;> rfl

lemma report_of_none {entries : List Line} {signal? : Option (List Bool)}
    (hpath : options.exportSignals = none) :
    report library files options series entries result signal? =
      .ok ⟨0, entries ++ [.text (printResult result)], files⟩ := by
  unfold report
  rw [hpath]

lemma report_of_write {entries : List Line} {path : String} {files' : F}
    (hpath : options.exportSignals = some path)
    (hwrite : library.writeColumn files path (signalColumn series.dates signals) = .ok files') :
    report library files options series entries result
        (options.exportSignals.map fun _ => signals) =
      .ok ⟨0, entries ++ [.text (printResult result)] ++
        [.text ("Signals exported to " ++ path)], files'⟩ := by
  unfold report
  rw [hpath, Option.map_some]
  dsimp only
  rw [hwrite]
  rfl

variable (hthreshold : Log.threshold (.text options.logLevel) = .ok threshold)

include hthreshold

lemma execute_of_load_error {e : DataError}
    (hload : load library files options.csv options.count = .error e) (he : e.family ≠ .other) :
    execute library files options = .ok ⟨1,
      [.text ("ERROR: could not load bars from " ++ options.csv ++ ": " ++ e.message)], files⟩ := by
  simp only [execute, hthreshold, hload, he]
  rfl

variable (hload : load library files options.csv options.count = .ok series)

include hload

lemma execute_of_evaluate_error {e : FormulaError}
    (h : series.evaluate (.text options.formula) = .error (.formula e)) :
    execute library files options =
      .ok ⟨2, (Log.written threshold (log series options)).map .entry ++
        [.text ("ERROR: formula error: " ++ e.message)], files⟩ := by
  simp only [execute, hthreshold, hload, evaluate, h]
  rfl

lemma execute_of_signal (h : series.evaluate (.text options.formula) = .ok result)
    (hsignal : series.signal (.text options.formula) = .ok signals) :
    execute library files options = report library files options series
      ((Log.written threshold (log series options)).map .entry) result
      (options.exportSignals.map fun _ => signals) := by
  simp only [execute, hthreshold, hload, evaluate_of_signal h hsignal]
  rfl

end Execution

/-- A file exported for bars has one row for each of them, and the last row is the trigger. -/
structure Exports (series : Series Float) (formula : String) (result : TriggerResult)
    (text? : Option String) (signals : List Bool) : Prop where
  signal : series.signal (.text formula) = .ok signals
  length : signals.length = series.length
  last : ∀ last, signals.getLast? = some last → last = result.triggered
  rows : text? = some (String.join ((exportedLines series.dates signals).map (· ++ "\n")))

/-- A success for bars: their result is printed, and it is exported where that is asked for. -/
structure Reports {F : Type} (shown : F → String → Option String) (series : Series Float)
    (options : Options) (files : F) (outcome : Outcome F) (result : TriggerResult) : Prop where
  evaluated : series.evaluate (.text options.formula) = .ok result
  printed : ∃ entries : List Log.Entry, outcome.lines = entries.map .entry ++
    .text ("\n".intercalate (printedLines result)) ::
      (options.exportSignals.map fun path => .text ("Signals exported to " ++ path)).toList
  unexported : options.exportSignals = none → outcome.files = files
  exported : ∀ path, options.exportSignals = some path →
    ∃ signals, Exports series options.formula result (shown outcome.files path) signals

/-- What the command comes to on bars. -/
structure Concludes {F : Type} (shown : F → String → Option String) (series : Series Float)
    (options : Options) (files : F) (outcome : Outcome F) : Prop where
  status : outcome.status = 0 ∨ outcome.status = 2
  failed : outcome.status = 2 ↔
    series ≠ [] ∧ ∃ e, series.evaluate (.text options.formula) = .error (.formula e)
  kept : outcome.status = 2 → outcome.files = files
  reported : outcome.status = 0 → ∃ result, Reports shown series options files outcome result

section Conclusion

variable {F : Type} {library : Library F} {shown : F → String → Option String} {files : F}
  {options : Options} {threshold : Datum} {series : Series Float} {days : List CalendarDate}

lemma Reports.concludes {outcome : Outcome F} {result : TriggerResult}
    (hstatus : outcome.status = 0) (h : Reports shown series options files outcome result) :
    Concludes shown series options files outcome where
  status := .inl hstatus
  failed := by
    refine iff_of_false (by rw [hstatus]; decide) ?_
    rintro ⟨-, e, hfault⟩
    rw [h.evaluated] at hfault
    cases hfault
  kept hfailed := by
    rw [hstatus] at hfailed
    cases hfailed
  reported _ := ⟨result, h⟩

variable (hthreshold : Log.threshold (.text options.logLevel) = .ok threshold)
  (hload : load library files options.csv options.count = .ok series)

include hthreshold hload

lemma exists_concludes_of_evaluate_error {e : FormulaError}
    (h : series.evaluate (.text options.formula) = .error (.formula e)) :
    ∃ outcome, execute library files options = .ok outcome ∧
      Concludes shown series options files outcome := by
  have hseries : series ≠ [] := by
    rintro rfl
    cases h
  exact ⟨_, execute_of_evaluate_error hthreshold hload h, {
    status := .inr rfl
    failed := iff_of_true rfl ⟨hseries, e, h⟩
    kept := fun _ => rfl
    reported := fun h => by cases h }⟩

variable (hdays : series.Follows days)
  (hwritable : ∀ path, options.exportSignals = some path → library.CanWrite shown files path)

include hdays hwritable

lemma exists_concludes_of_evaluate_ok {result : TriggerResult}
    (h : series.evaluate (.text options.formula) = .ok result) :
    ∃ outcome, execute library files options = .ok outcome ∧
      Concludes shown series options files outcome := by
  -- A formula with a result is reported, since the signal that may be asked for exists as well.
  obtain ⟨frame, hframe⟩ := series.exists_reads_float
  have hagree := Series.signal_agree_last hframe options.formula
  obtain ⟨signals, hsignal⟩ := hagree.exists_ok_iff.mpr ⟨result, h⟩
  obtain ⟨hlength, hlast⟩ := hagree.of_ok hsignal h
  have hexecute := execute_of_signal hthreshold hload h hsignal
  obtain ⟨hdate, hexplanation⟩ := isUnescaped_of_evaluate hdays h
  have hprint := printResult_eq hdate hexplanation
  cases hpath : options.exportSignals with
  | none =>
    exact ⟨_, hexecute.trans (report_of_none hpath), Reports.concludes rfl {
      evaluated := h
      printed := ⟨_, by rw [hpath, hprint]; rfl⟩
      unexported := fun _ => rfl
      exported := fun path hsome => by simp [hpath] at hsome }⟩
  | some path =>
    obtain ⟨files', hwrite, hshown⟩ :=
      hwritable path hpath _ (isPlain_signalColumn hdays.isPlainCell signals)
    refine ⟨_, hexecute.trans (report_of_write hpath hwrite), Reports.concludes rfl {
      evaluated := h
      printed := ⟨_, by rw [hpath, hprint, List.append_assoc]; rfl⟩
      unexported := fun hnone => by simp [hpath] at hnone
      exported := fun other hsome => ?_ }⟩
    cases hpath.symm.trans hsome
    rw [text_signalColumn] at hshown
    exact ⟨signals, hsignal, hlength, hlast, hshown⟩

lemma exists_concludes : ∃ outcome, execute library files options = .ok outcome ∧
    Concludes shown series options files outcome := by
  cases hresult : series.evaluate (.text options.formula) with
  | ok result => exact exists_concludes_of_evaluate_ok hthreshold hload hdays hwritable hresult
  | error fault =>
    obtain ⟨frame, hframe⟩ := series.exists_reads_float
    obtain ⟨e, rfl, -⟩ := Series.exists_of_evaluate_eq_error hframe rfl hresult
    exact exists_concludes_of_evaluate_error hthreshold hload hresult

end Conclusion

/-- With a level that the log knows, a library that reads days and a path that it can write to, the
command ends in one of three ways. Bars that cannot be loaded leave the files. A formula that fails
on the selected bars leaves the files as well. Otherwise the result is printed, and where it is
asked for one row is written for each bar, in the order of the texts of their days, the last with
the trigger that was printed. That order is the one of the days themselves if all years have four
digits. -/
theorem run_concludes {F : Type} {library : Library F} {shown : F → String → Option String}
    {settings : Settings} {files : F} {arguments : List String} {options : Options}
    {threshold : Datum} (hoptions : Options.read settings arguments = .ok options)
    (hthreshold : Log.threshold (.text options.logLevel) = .ok threshold)
    (hreader : library.readDate.WritesDays)
    (hwritable : ∀ path, options.exportSignals = some path → library.CanWrite shown files path) :
    (∀ e, load library files options.csv options.count = .error e → e.family ≠ .other →
      ∃ outcome, run library settings files arguments = .ok outcome ∧ outcome.status = 1 ∧
        outcome.files = files) ∧
    ∀ series, load library files options.csv options.count = .ok series →
      (∃ outcome, run library settings files arguments = .ok outcome ∧
        Concludes shown series options files outcome) ∧
      ∃ days, series.Follows days ∧
        ((∀ day ∈ days, day.HasFourDigits) → days.Pairwise CalendarDate.AtMost) := by
  have hrun : run library settings files arguments = execute library files options := by
    rw [run, hoptions]
  rw [hrun]
  refine ⟨fun e hload he => ?_, fun series hload => ?_⟩
  · exact ⟨_, execute_of_load_error hthreshold hload he, rfl, rfl⟩
  · obtain ⟨days, hdays⟩ := exists_follows_of_load hreader hload
    exact ⟨exists_concludes hthreshold hload hdays hwritable, days, hdays, hdays.pairwise⟩

section TurnOfMillennium

/-- Bars of the two days around the turn of a millennium, the earlier one of a year that is written
with three digits. -/
def turnText : String :=
  "date,open,high,low,close,volume\n0999-12-31,1,1,1,1,1\n1000-01-01,2,2,2,2,2\n"

def turnFiles : FileTree where
  files := [(["b"], turnText)]

def turnSeries : Series Float :=
  [⟨⟨2, 2, 2, 2, 2⟩, "1000-01-01"⟩, ⟨⟨1, 1, 1, 1, 1⟩, "999-12-31"⟩]

def turnArguments : List String :=
  ["--csv", "b", "--formula", "C > 1", "--export-signals", "s"]

def turnOptions : Options :=
  ⟨"b", "C > 1", 200, some "s", "INFO"⟩

lemma read_turnArguments :
    Options.read (.ofEnvironment fun _ => none) turnArguments = .ok turnOptions := by
  have harguments : Argument.ofStrings specs turnArguments = .ok
      [.option ⟨"--csv", true, false⟩ none, .value "b",
        .option ⟨"--formula", true, false⟩ none, .value "C > 1",
        .option ⟨"--export-signals", false, false⟩ none, .value "s"] := by
    decide +kernel
  rw [Options.read, readOptions, harguments]
  rfl

lemma threshold_turnOptions :
    Log.threshold (.text turnOptions.logLevel) = .ok (.int Log.info) := by
  rfl

lemma isWritable_turnFiles (path : String) (hpath : turnOptions.exportSignals = some path) :
    turnFiles.IsWritable path := by
  cases hpath
  have hsteps : Way.steps "s" = ["s"] := by cbv
  have hstart : Way.start "s" = [] := by cbv
  have hroot : turnFiles.place [] = .directory := by cbv
  have hplace : turnFiles.place ["s"] = .nothing := by cbv
  have hparent : Path.parent "s" = "" := by cbv
  have hdirectory : turnFiles.find "" = .ok ([], .directory) := by cbv
  have hfollow : turnFiles.follow "s" [] ["s"] = .ok ["s"] := by
    rw [FileTree.follow, hroot]
    decide +kernel
  exact ⟨"", _, FileTree.write_eq_ok_iff.mpr ⟨["s"], {
    parent := ⟨[], by rw [hparent, hdirectory]⟩
    check := by cbv
    follow := by rw [hsteps, hstart, hfollow]
    slash := by cbv
    notSame := by rw [hsteps]; decide
    notUp := by rw [hsteps]; decide
    place := by rw [hplace]; decide }, rfl⟩⟩

lemma load_turnFiles : load Csv.plainFiles turnFiles "b" 200 = .ok turnSeries := by
  have hread : turnFiles.read "b" = .ok turnText := by cbv
  have hbars : (do
      let table ← Csv.table turnText
      (← table.records).mapM (Datum.toBar CalendarDate.read)) =
      .ok [⟨⟨1, 1, 1, 1, 1⟩, "999-12-31"⟩, ⟨⟨2, 2, 2, 2, 2⟩, "1000-01-01"⟩] := by
    decide +kernel
  simp only [bind_eq_ok_iff] at hbars
  obtain ⟨table, htable, records, hrecords, hbars⟩ := hbars
  have hsorted : Series.sortByDate
      [(⟨⟨1, 1, 1, 1, 1⟩, "999-12-31"⟩ : Bar Float), ⟨⟨2, 2, 2, 2, 2⟩, "1000-01-01"⟩] =
        turnSeries :=
    Series.sortByDate_pair (by decide +kernel)
  simp only [load, Csv.plainFiles, Table.toSeries, Series.ofRecords, bind_eq_ok_iff]
  exact ⟨table, ⟨_, hread, htable⟩, _, ⟨records, hrecords, _, hbars, rfl⟩, by rw [hsorted]; rfl⟩

lemma canWrite_turnFiles (path : String) (hpath : turnOptions.exportSignals = some path) :
    Csv.plainFiles.CanWrite Csv.shownIn turnFiles path :=
  Csv.canWrite_plainFiles (isWritable_turnFiles path hpath)

/-- The row of the earlier day is the last one that is exported, and its trigger is printed. -/
structure LeavesTurn (outcome : Outcome FileTree) : Prop where
  status : outcome.status = 0
  printed : ∃ entries : List Log.Entry, outcome.lines = entries.map .entry ++
    [.text ("\x7b\n  \x22triggered\x22: false,\n  \x22index\x22: 1,\n" ++
      "  \x22date\x22: \x22999-12-31\x22,\n  \x22explain\x22: \x22not triggered\x22\n\x7d"),
    .text "Signals exported to s"]
  exported : Csv.shownIn outcome.files "s" = some "date,signal\n1000-01-01,1\n999-12-31,0\n"

lemma leavesTurn_of_concludes {outcome : Outcome FileTree}
    (h : Concludes Csv.shownIn turnSeries turnOptions turnFiles outcome) : LeavesTurn outcome := by
  have hresult : turnSeries.evaluate (.text "C > 1") =
      .ok ⟨false, 1, "999-12-31", "not triggered"⟩ := by
    decide +kernel
  have hsignal : turnSeries.signal (.text "C > 1") = .ok [true, false] := by
    decide +kernel
  have hstatus : outcome.status = 0 := by
    refine h.status.resolve_right fun hfailed => ?_
    obtain ⟨-, e, hfault⟩ := h.failed.mp hfailed
    cases hresult.symm.trans hfault
  obtain ⟨result, hreports⟩ := h.reported hstatus
  obtain ⟨signals, hexports⟩ := hreports.exported "s" rfl
  obtain ⟨entries, hlines⟩ := hreports.printed
  cases hresult.symm.trans hreports.evaluated
  cases hsignal.symm.trans hexports.signal
  exact ⟨hstatus, ⟨entries, hlines⟩, hexports.rows⟩

theorem run_concludes_turn :
    Options.read (.ofEnvironment fun _ => none) turnArguments = .ok turnOptions ∧
    Log.threshold (.text turnOptions.logLevel) = .ok (.int Log.info) ∧
    Csv.plainFiles.readDate.WritesDays ∧
    (∀ path, turnOptions.exportSignals = some path →
      Csv.plainFiles.CanWrite Csv.shownIn turnFiles path) ∧
    ∃ outcome, run Csv.plainFiles (.ofEnvironment fun _ => none) turnFiles turnArguments =
        .ok outcome ∧ LeavesTurn outcome := by
  have hrun := run_concludes read_turnArguments threshold_turnOptions CalendarDate.writesDays_read
    canWrite_turnFiles
  obtain ⟨⟨outcome, houtcome, hconcludes⟩, -⟩ := hrun.2 turnSeries load_turnFiles
  exact ⟨read_turnArguments, threshold_turnOptions, CalendarDate.writesDays_read,
    canWrite_turnFiles, outcome, houtcome, leavesTurn_of_concludes hconcludes⟩

/-- The rows of an export are not always in the order of their days. -/
theorem not_every_export_in_order : ¬ ∀ (F : Type) (library : Library F)
    (shown : F → String → Option String) (settings : Settings) (files : F)
    (arguments : List String) (options : Options) (outcome : Outcome F) (path : String)
    (days : List CalendarDate) (signals : List Bool),
    library.readDate.WritesDays → library.CanWrite shown files path →
    Options.read settings arguments = .ok options → options.exportSignals = some path →
    run library settings files arguments = .ok outcome → outcome.status = 0 →
    (∀ day ∈ days, day.InRange) → signals.length = days.length →
    shown outcome.files path =
      some (String.join ((exportedLines (days.map CalendarDate.render) signals).map (· ++ "\n"))) →
    days.Pairwise CalendarDate.AtMost := by
  intro hall
  obtain ⟨days, hdays⟩ := exists_follows_of_load CalendarDate.writesDays_read load_turnFiles
  obtain ⟨outcome, hexecute, hconcludes⟩ := exists_concludes threshold_turnOptions load_turnFiles
    hdays canWrite_turnFiles
  have hleaves := leavesTurn_of_concludes hconcludes
  have hrun : run Csv.plainFiles (.ofEnvironment fun _ => none) turnFiles turnArguments =
      .ok outcome := by
    rw [run, read_turnArguments]
    exact hexecute
  have hordered := hall _ _ _ _ _ _ _ outcome "s" [⟨1000, 1, 1⟩, ⟨999, 12, 31⟩] [true, false]
    CalendarDate.writesDays_read (canWrite_turnFiles "s" rfl) read_turnArguments rfl hrun
    hleaves.status (by decide) rfl hleaves.exported
  exact absurd hordered (by decide)

end TurnOfMillennium

end Command.RunFormula
end MarketFormula

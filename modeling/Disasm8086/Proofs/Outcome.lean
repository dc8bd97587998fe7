import Disasm8086.Proofs.Events
import Disasm8086.Proofs.Log
import Disasm8086.Proofs.Report
import Disasm8086.Proofs.Styled

/-!
# What a run comes to

A run on a path prints the whole listing of the file, or nothing and a report of what went wrong.
The setting of the log, and the time, add lines of the log to standard error and change nothing
else: what stands behind the log is the same for every setting.
-/
namespace Disasm8086.Command

open Segment

/-- The bytes in front of the place are instructions, as many as its index, and the bytes at the
place begin with no further one for this cause. -/
def IsFirstFault (bytes : List UInt8) (stop : Stop) : Prop :=
  ∃ factors, Factors (bytes.take stop.offset) factors ∧ factors.length = stop.index ∧
    Faulty stop.offset (bytes.drop stop.offset) stop.cause

theorem isFirstFault_of_error {bytes : List UInt8} {stop : Stop}
    (h : Listing.disassemble bytes = .error stop) : IsFirstFault bytes stop := by
  obtain ⟨segments, rest, rfl, hfault, hindex, hoffset⟩ := Listing.disassemble_eq_error_iff.mp h
  refine ⟨segments.map bytes, ?_, ?_, ?_⟩
  · rw [hoffset, List.take_left]
    exact Factors.of_segments segments
  · rw [hindex, List.length_map]
  · rw [hoffset, List.drop_left]
    exact hfault

variable {platform : Platform} {path : platform.Path}

/-- What a run on a path comes to if nothing is logged. -/
def ending (path : platform.Path) : Except String (List UInt8) → Except (Failure platform) String
  | .error error => .error (.read path error)
  | .ok bytes => (Listing.disassemble bytes).mapError (.decode path)

theorem ending_of_ok {bytes : List UInt8} {text : String}
    (h : Listing.disassemble bytes = .ok text) : ending path (.ok bytes) = .ok text := by
  rw [ending, h]
  rfl

theorem ending_of_error {bytes : List UInt8} {stop : Stop}
    (h : Listing.disassemble bytes = .error stop) :
    ending path (.ok bytes) = .error (.decode path stop) := by
  rw [ending, h]
  rfl

/-- The outcome of an ending with a log in front of the report. -/
def Outcome.ofEnding (log : String) : Except (Failure platform) String → Outcome
  | .ok text => ⟨0, text, log⟩
  | .error failure => ⟨1, "", log ++ failure.report⟩

/-- What stands behind the log. -/
def reportOf : Except (Failure platform) String → String
  | .ok _ => ""
  | .error failure => failure.report

theorem Outcome.stderr_ofEnding (log : String) (ending : Except (Failure platform) String) :
    (Outcome.ofEnding log ending).stderr = log ++ reportOf ending := by
  cases ending with
  | ok text => exact String.append_empty.symm
  | error failure => rfl

theorem Outcome.ofResult_ok (hprint : platform.PrintsAll) (text : String)
    (console : Console platform) :
    Outcome.ofResult (.ok text console : EStateM.Result (Failure platform) _ _) =
      ⟨0, text, console.text⟩ := by
  rw [Outcome.ofResult, hprint text]

/-- A run on a path writes some of its events to the log, and comes to what the file comes to
without one. -/
theorem exists_run_eq (hprint : platform.PrintsAll) {arguments : List platform.Argument}
    (h : platform.parse arguments = .ok path) (setting : Option String) (clock : platform.Clock) :
    ∃ events, (∀ event ∈ events, event.OfRun (platform.display path)) ∧
      platform.run setting clock arguments =
        .ofEnding (platform.logText clock events) (ending path (platform.read path)) := by
  rw [run_of_parse h]
  cases hread : platform.read path with
  | error error =>
    rw [disassembleFile_of_read_error hread]
    exact ⟨[], by simp, rfl⟩
  | ok bytes =>
    obtain ⟨segments, rest, rfl, rfl | ⟨cause, hfault⟩⟩ := exists_segments bytes
    · rw [List.append_nil] at hread ⊢
      rw [disassembleFile_flatten hread, Outcome.ofResult_ok hprint, Console.text_extend,
        ending_of_ok (Listing.disassemble_flatten segments)]
      exact ⟨_, fun event hevent => ofRun_complete _ segments event (List.mem_of_mem_filter hevent),
        rfl⟩
    · rw [disassembleFile_faulty hread hfault, Outcome.ofResult, Console.text_extend,
        ending_of_error (Listing.disassemble_faulty segments hfault)]
      exact ⟨_, fun event hevent => ofRun_broken _ _ segments event (List.mem_of_mem_filter hevent),
        rfl⟩

theorem exists_ending_eq_ok_iff {contents : Except String (List UInt8)} :
    (∃ text, ending path contents = .ok text) ↔
      ∃ bytes text, contents = .ok bytes ∧ Listing.disassemble bytes = .ok text := by
  cases contents with
  | error error => simp [ending]
  | ok bytes =>
    cases hlisting : Listing.disassemble bytes with
    | ok text => simp [ending_of_ok hlisting, hlisting]
    | error stop => simp [ending_of_error hlisting, hlisting]

theorem code_ofEnding_eq_zero_iff {log : String} {ending : Except (Failure platform) String} :
    (Outcome.ofEnding log ending).code = 0 ↔ ∃ text, ending = .ok text := by
  cases ending <;> simp [Outcome.ofEnding]

theorem ofEnding_of_ne_zero {log : String} {ending : Except (Failure platform) String}
    (h : (Outcome.ofEnding log ending).code ≠ 0) :
    (Outcome.ofEnding log ending).code = 1 ∧ (Outcome.ofEnding log ending).stdout = "" := by
  cases ending with
  | ok text => exact absurd rfl h
  | error failure => exact ⟨rfl, rfl⟩

theorem reportOf_of_code_eq_zero {log : String} {ending : Except (Failure platform) String}
    (h : (Outcome.ofEnding log ending).code = 0) : reportOf ending = "" := by
  obtain ⟨text, rfl⟩ := code_ofEnding_eq_zero_iff.mp h
  rfl

/-- The log changes neither the code nor standard output. -/
theorem ofEnding_eq_ofEnding (log log' : String) (ending : Except (Failure platform) String) :
    (Outcome.ofEnding log ending).code = (Outcome.ofEnding log' ending).code ∧
      (Outcome.ofEnding log ending).stdout = (Outcome.ofEnding log' ending).stdout := by
  cases ending with
  | ok text => exact ⟨rfl, rfl⟩
  | error failure => exact ⟨rfl, rfl⟩

theorem reportsRead_ending (hreport : platform.ReportsCauses) (hnames : platform.NamesErrors)
    {error : String} (h : platform.read path = .error error) :
    ReportsRead (platform.display path) error (reportOf (ending path (platform.read path))) := by
  rw [h]
  exact Failure.reportsRead hreport (hnames path error h)

theorem reportsDecode_ending (hreport : platform.ReportsCauses) {bytes : List UInt8}
    (h : platform.read path = .ok bytes) {stop : Stop}
    (hstop : Listing.disassemble bytes = .error stop) :
    ReportsDecode (platform.display path) stop (reportOf (ending path (platform.read path))) := by
  rw [h, ending_of_error hstop]
  exact Failure.reportsDecode hreport stop

/-- For every platform that keeps its promises, a command line with one input path, and any two
settings of the log and times: the run succeeds exactly if the path is read as a file with a
listing, and then prints that listing. Otherwise it fails with code one, prints nothing, and reports
the read error, or the first malformed instruction with its number, offset and fault. The two runs
have the same code and the same standard output. Standard error is what the log writes for events at
the levels `DEBUG` and `TRACE`, and then the report, which is the same for both, as are its lines.
If the log writes the path in one line, its lines are known by the levels behind their time stamps,
and without them the lines of the report are left. -/
theorem run_all_or_nothing (platform : Platform) (hprint : platform.PrintsAll)
    (hends : platform.EndsLines) (hlines : platform.WritesLines)
    (hreport : platform.ReportsCauses) (hnames : platform.NamesErrors)
    (arguments : List platform.Argument) (path : platform.Path)
    (h : platform.parse arguments = .ok path) (setting setting' : Option String)
    (clock clock' : platform.Clock) :
    let outcome := platform.run setting clock arguments
    let other := platform.run setting' clock' arguments
    (outcome.code = 0 ↔
      ∃ bytes text, platform.read path = .ok bytes ∧ Listing.disassemble bytes = .ok text) ∧
    (∀ bytes text, platform.read path = .ok bytes → Listing.disassemble bytes = .ok text →
      outcome.stdout = text) ∧
    (outcome.code ≠ 0 → outcome.code = 1 ∧ outcome.stdout = "") ∧
    outcome.code = other.code ∧ outcome.stdout = other.stdout ∧
    ∃ events events' report,
      outcome.stderr = platform.logText clock events ++ report ∧
      other.stderr = platform.logText clock' events' ++ report ∧
      Listing.lines outcome.stderr =
        Listing.lines (platform.logText clock events) ++ Listing.lines report ∧
      Listing.lines other.stderr =
        Listing.lines (platform.logText clock' events') ++ Listing.lines report ∧
      (∀ event ∈ events ++ events', event.level = .debug ∨ event.level = .trace) ∧
      (outcome.code = 0 → report = "") ∧
      (∀ error, platform.read path = .error error →
        ReportsRead (platform.display path) error report) ∧
      (∀ bytes stop, platform.read path = .ok bytes → Listing.disassemble bytes = .error stop →
        IsFirstFault bytes stop ∧ ReportsDecode (platform.display path) stop report) ∧
      ((∀ size, platform.WritesLine (.loaded (platform.display path) size)) →
        remarks outcome.stderr = remarks report ∧ remarks other.stderr = remarks report) := by
  intro outcome other
  obtain ⟨events, hevents, hrun⟩ := exists_run_eq hprint h setting clock
  obtain ⟨events', hevents', hrun'⟩ := exists_run_eq hprint h setting' clock'
  change outcome = _ at hrun
  change other = _ at hrun'
  obtain ⟨hcode, hstdout⟩ := ofEnding_eq_ofEnding (platform.logText clock events)
    (platform.logText clock' events') (ending path (platform.read path))
  rw [hrun, hrun', Outcome.stderr_ofEnding, Outcome.stderr_ofEnding]
  refine ⟨code_ofEnding_eq_zero_iff.trans exists_ending_eq_ok_iff, ?_, ofEnding_of_ne_zero, hcode,
    hstdout, events, events', _, rfl, rfl, Platform.lines_logText_append hends ..,
    Platform.lines_logText_append hends .., ?_, reportOf_of_code_eq_zero, ?_, ?_, ?_⟩
  · intro bytes text hread htext
    rw [hread, ending_of_ok htext]
    rfl
  · intro event hevent
    exact (List.forall_mem_append.mpr ⟨hevents, hevents'⟩ event hevent).level_eq
  · exact fun error => reportsRead_ending hreport hnames
  · intro bytes stop hread hstop
    exact ⟨isFirstFault_of_error hstop, reportsDecode_ending hreport hread hstop⟩
  · intro hpath
    exact ⟨remarks_logText_append hlines hpath hevents clock _,
      remarks_logText_append hlines hpath hevents' clock' _⟩

/-- A file with two moves and a byte behind them that is no opcode, first without a setting of the
log and then at the level `trace`. -/
theorem run_all_or_nothing_unknown :
    let bytes := [0x89, 0xD9, 0xB0, 0x05, 0xF4]
    let platform := Styled.platform [("in.bin", bytes)]
    let outcome := platform.run none (0 : Nat) ["in.bin"]
    let other := platform.run (some "trace") (7 : Nat) ["in.bin"]
    platform.parse ["in.bin"] = .ok "in.bin" ∧
    Listing.disassemble bytes = .error ⟨2, 4, .unknownOpcode 0xF4⟩ ∧
    outcome = ⟨1, "", "Error: decode in.bin\n\nCaused by:\n" ++
      "    0: failed to decode instruction 2 (byte offset 4)\n" ++
      "    1: unknown opcode 0xf4 (11110100)\n"⟩ ∧
    other.code = 1 ∧ other.stdout = "" ∧
    remarks other.stderr = ["Error: decode in.bin", "", "Caused by:",
      "    0: failed to decode instruction 2 (byte offset 4)",
      "    1: unknown opcode 0xf4 (11110100)"] := by
  intro bytes platform outcome other
  have hstop : Listing.disassemble bytes = .error ⟨2, 4, .unknownOpcode 0xF4⟩ := by
    decide +kernel
  have hrun : outcome = ⟨1, "", "Error: decode in.bin\n\nCaused by:\n" ++
      "    0: failed to decode instruction 2 (byte offset 4)\n" ++
      "    1: unknown opcode 0xf4 (11110100)\n"⟩ := by
    decide +kernel
  have hpath (size : Nat) : platform.WritesLine (.loaded "in.bin" size) :=
    Styled.writesLines _ _ (Event.isPrintable_text_loaded (by decide) size)
  obtain ⟨-, -, -, hcode, hstdout, -, -, report, -, -, -, -, -, -, -, -, hremarks⟩ :=
    run_all_or_nothing platform (Styled.printsAll _) (Styled.endsLines _)
      (Styled.writesLines _) (Styled.reportsCauses _) (Styled.namesErrors _) ["in.bin"] "in.bin" rfl
      none (some "trace") (0 : Nat) (7 : Nat)
  obtain ⟨houtcome, hother⟩ := hremarks hpath
  have hsame : remarks other.stderr = remarks outcome.stderr := hother.trans houtcome.symm
  refine ⟨rfl, hstop, hrun, hcode.symm.trans (congrArg Outcome.code hrun),
    hstdout.symm.trans (congrArg Outcome.stdout hrun), ?_⟩
  rw [hsame, hrun]
  decide +kernel

end Disasm8086.Command

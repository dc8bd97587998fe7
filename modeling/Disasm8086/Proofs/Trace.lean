import Disasm8086.Proofs.Events
import Disasm8086.Proofs.Log
import Disasm8086.Proofs.Report
import Disasm8086.Proofs.Styled

/-!
# The trace of a run

At the level `trace` the log shows every step of a run. Its lines, standard output and the report
are fed from different counters, and agree: the lines number the instructions, place each behind the
lengths of those in front of it, and show the text that is printed. A listing ends with their number
and their whole length, a report names them as the place of the fault.
-/
namespace Disasm8086.Command

open Segment Terminal

/-- What a line of the trace tells of an instruction. -/
structure Trace where
  index : Nat
  offset : Nat
  length : Nat
  text : String
  deriving DecidableEq, Repr

namespace Trace

/-- The text of the line. -/
def words (trace : Trace) : String :=
  "TRACE dis86::decoder: decoded instruction index=" ++ toString trace.index ++
    " offset=" ++ toString trace.offset ++ " len=" ++ toString trace.length ++
    " inst=" ++ trace.text

/-- The lengths of instructions, added up. -/
def total : List Trace → Nat
  | [] => 0
  | trace :: traces => trace.length + total traces

/-- The trace tells the length of a byte string and the text of the instruction it is read as. -/
def Tells (trace : Trace) (bytes : List UInt8) : Prop :=
  trace.length = bytes.length ∧
    ∃ instruction : Instruction, instruction.Spans bytes ∧ trace.text = instruction.text

/-- The traces of instructions that are decoded one behind the other, with numbers from `index` on
and places from `position` on. -/
def ofSegments (index position : Nat) : List Segment → List Trace
  | [] => []
  | segment :: segments =>
    ⟨index, position, segment.bytes.length, segment.instruction.text⟩ ::
      ofSegments (index + 1) (position + segment.bytes.length) segments

@[simp] theorem length_ofSegments (index position : Nat) (segments : List Segment) :
    (ofSegments index position segments).length = segments.length := by
  induction segments generalizing index position with
  | nil => rfl
  | cons segment segments ih => simp [ofSegments, ih]

theorem total_ofSegments (index position : Nat) (segments : List Segment) :
    total (ofSegments index position segments) = (flatten segments).length := by
  induction segments generalizing index position with
  | nil => rfl
  | cons segment segments ih =>
    rw [ofSegments, total, ih, flatten_cons, List.length_append]

theorem tells_ofSegments (index position : Nat) (segments : List Segment) :
    List.Forall₂ Tells (ofSegments index position segments) (segments.map bytes) := by
  induction segments generalizing index position with
  | nil => exact .nil
  | cons segment segments ih =>
    refine .cons ⟨rfl, segment.instruction, ?_, rfl⟩ (ih _ _)
    exact Instruction.spans_iff_encodes.mpr segment.encodes

/-- Each trace has its number, and its place behind the lengths of those in front of it. -/
theorem getElem?_ofSegments {index position k : Nat} {segments : List Segment} {trace : Trace}
    (h : (ofSegments index position segments)[k]? = some trace) : trace.index = index + k ∧
      trace.offset = position + total ((ofSegments index position segments).take k) := by
  induction segments generalizing index position k with
  | nil => cases h
  | cons segment segments ih =>
    cases k with
    | zero =>
      cases h
      exact ⟨rfl, rfl⟩
    | succ k =>
      obtain ⟨hindex, hoffset⟩ := ih h
      rw [hindex, hoffset]
      simp only [ofSegments, List.take_succ_cons, total]
      omega

theorem numbered_ofSegments (segments : List Segment) (k : Nat) (trace : Trace)
    (h : (ofSegments 0 0 segments)[k]? = some trace) :
    trace.index = k ∧ trace.offset = total ((ofSegments 0 0 segments).take k) := by
  have hplace := getElem?_ofSegments h
  rwa [Nat.zero_add, Nat.zero_add] at hplace

/-- The traces tell the parts that make up the bytes in front of a fault. -/
theorem exists_factors_ofSegments (segments : List Segment) (rest : List UInt8) :
    ∃ factors,
      Factors ((flatten segments ++ rest).take (total (ofSegments 0 0 segments))) factors ∧
      List.Forall₂ Tells (ofSegments 0 0 segments) factors := by
  rw [total_ofSegments, List.take_left]
  exact ⟨_, Factors.of_segments segments, tells_ofSegments 0 0 segments⟩

/-- The text of the lines is the listing of the instructions without its header. -/
theorem join_text_ofSegments (index position : Nat) (segments : List Segment) :
    String.join ((ofSegments index position segments).map fun trace => trace.text ++ "\n") =
      String.join ((place position segments).map Listing.line) := by
  induction segments generalizing index position with
  | nil => rfl
  | cons segment segments ih => simp [ofSegments, place, ih, Listing.line]

/-- The lines of instructions that are decoded one behind the other show their traces. -/
theorem shows_ofSegments {lines : List String} {index position : Nat} {segments : List Segment}
    (h : List.Forall₂ (fun line event => Shows line event.text) lines
      (Event.ofPlaced index (place position segments))) :
    List.Forall₂ (fun line trace => Shows line (words trace)) lines
      (ofSegments index position segments) := by
  induction segments generalizing index position lines with
  | nil =>
    cases h
    exact .nil
  | cons segment segments ih =>
    rw [place, Event.ofPlaced] at h
    cases h with
    | cons hline hlines =>
      rw [Event.text_decoded, segment.toNat_size] at hline
      exact .cons hline (ih hlines)

end Trace

/-- A line of the log that ends a listing. -/
def IsFinished (line : String) : Prop :=
  "DEBUG dis86::decoder: decoded listing".toList <+: behindStamp line

theorem not_isFinished_loaded {line path : String} {size : Nat}
    (h : Shows line (Event.loaded path size).text) : ¬ IsFinished line := by
  rw [IsFinished, h.behindStamp_eq, Event.text_loaded]
  simp

theorem not_isFinished_traces {lines : List String} {traces : List Trace}
    (h : List.Forall₂ (fun line trace => Shows line (Trace.words trace)) lines traces) :
    ∀ line ∈ lines, ¬ IsFinished line := by
  induction h with
  | nil => exact List.forall_mem_nil _
  | @cons line trace lines traces hline _ ih =>
    refine List.forall_mem_cons.mpr ⟨?_, ih⟩
    unfold Trace.words at hline
    rw [IsFinished, hline.behindStamp_eq]
    simp

variable {platform : Platform} {path : platform.Path}

/-- The log of a run up to its last instruction, and what is written of the events behind it. -/
theorem exists_lines_of_segments (hlines : platform.WritesLines)
    (hpath : ∀ size, platform.WritesLine (.loaded (platform.display path) size))
    (clock : platform.Clock) (size : Nat) (segments : List Segment) {last : List Event}
    (hlast : ∀ event ∈ last, event.OfRun (platform.display path)) :
    ∃ loaded lines more,
      platform.logText clock (.loaded (platform.display path) size ::
        (Event.ofPlaced 0 (place 0 segments) ++ last)) =
          String.join ((loaded :: lines).map (· ++ "\n")) ++ String.join (more.map (· ++ "\n")) ∧
      Shows loaded (Event.loaded (platform.display path) size).text ∧
      List.Forall₂ (fun line trace => Shows line (Trace.words trace)) lines
        (Trace.ofSegments 0 0 segments) ∧
      List.Forall₂ (fun line event => Shows line event.text) more last := by
  have hevents : ∀ event ∈ Event.ofPlaced 0 (place 0 segments) ++ last,
      event.OfRun (platform.display path) :=
    List.forall_mem_append.mpr ⟨ofRun_ofPlaced _ 0 _, hlast⟩
  obtain ⟨all, htext, hall⟩ := Platform.exists_lines_logText
    (fun event hevent => (List.forall_mem_cons.mpr ⟨.loaded size, hevents⟩ event hevent).writesLine
      hlines hpath) clock
  cases hall with
  | @cons loaded _ shown _ hloaded hshown =>
    refine ⟨loaded, _, _, ?_, hloaded,
      Trace.shows_ofSegments (List.forall₂_take_append _ _ _ hshown),
      List.forall₂_drop_append _ _ _ hshown⟩
    rw [htext, ← String.join_append, ← List.map_append, List.cons_append, List.take_append_drop]

/-- At the level `trace` all events are written. -/
theorem text_extend_trace (htrace : platform.TracesAll) (clock : platform.Clock)
    (events : List Event) :
    (Console.extend (platform.filterOf (some "trace")) ⟨clock, ""⟩ events).text =
      platform.logText clock events := by
  obtain ⟨filter, hfilter, hall⟩ := htrace
  have hmade : platform.filterOf (some "trace") = filter := by
    rw [Platform.filterOf, Option.bind_some, hfilter]
    rfl
  rw [hmade, Console.text_extend, List.filter_eq_self.mpr fun event _ => hall event]

section

variable {arguments : List platform.Argument} {segments : List Segment}

/-- A run on a file with a listing has the whole log, and nothing behind it unless printing
fails. -/
theorem run_trace_flatten (htrace : platform.TracesAll) (h : platform.parse arguments = .ok path)
    (hread : platform.read path = .ok (flatten segments)) (clock : platform.Clock) :
    let outcome := platform.run (some "trace") clock arguments
    let text := Listing.ofInstructions (place 0 segments)
    (outcome.code = 0 ↔ platform.print text = .ok ()) ∧
      ∃ rest, outcome.stderr = platform.logText clock
        (Event.complete (platform.display path) segments) ++ rest ∧
        (outcome.code = 0 → outcome.stdout = text ∧ rest = "") := by
  simp only [run_of_parse h, disassembleFile_flatten hread, Outcome.ofResult]
  cases hprint : platform.print (Listing.ofInstructions (place 0 segments)) with
  | ok done =>
    simp only [text_extend_trace htrace]
    exact ⟨by simp, "", String.append_empty.symm, by simp⟩
  | error failure =>
    simp only [text_extend_trace htrace]
    exact ⟨by simp, _, rfl, by simp⟩

/-- A run on a file with a fault has the log up to the fault, and then the report. -/
theorem run_trace_faulty (htrace : platform.TracesAll) (h : platform.parse arguments = .ok path)
    {rest : List UInt8} {cause : Fault}
    (hread : platform.read path = .ok (flatten segments ++ rest))
    (hfault : Faulty (flatten segments).length rest cause) (clock : platform.Clock) :
    platform.run (some "trace") clock arguments = ⟨1, "",
      platform.logText clock (Event.broken (platform.display path)
        (flatten segments ++ rest).length segments) ++
      (Failure.decode path ⟨segments.length, (flatten segments).length, cause⟩).report⟩ := by
  rw [run_of_parse h, disassembleFile_faulty hread hfault, Outcome.ofResult,
    text_extend_trace htrace]

end

/-- At the level `trace` standard error tells what a run on a readable file does. Behind the line
for the loaded input there is a line for each instruction of the file up to the first fault. The
lines are numbered from zero on, and each has as its offset the lengths of those in front of it. The
run succeeds if the file has a listing that can be printed. Then the lengths make up the file,
standard output is the header and the texts of the lines, and one line more ends the log with the
number of lines and the size of the file. If the file has a fault, standard output is empty, no such
line ends the log, and the report counts the lines and the lengths as the place of the fault. -/
theorem stderr_tells_run (platform : Platform) (hlines : platform.WritesLines)
    (htrace : platform.TracesAll) (hreport : platform.ReportsCauses)
    (arguments : List platform.Argument) (path : platform.Path)
    (h : platform.parse arguments = .ok path)
    (hpath : ∀ size, platform.WritesLine (.loaded (platform.display path) size))
    (bytes : List UInt8) (hread : platform.read path = .ok bytes) (clock : platform.Clock) :
    let outcome := platform.run (some "trace") clock arguments
    ∃ (loaded : String) (lines : List String) (traces : List Trace) (rest : String),
      outcome.stderr = String.join ((loaded :: lines).map (· ++ "\n")) ++ rest ∧
      Shows loaded ("DEBUG dis86: loaded input path=" ++ platform.display path ++ " len=" ++
        toString bytes.length) ∧
      List.Forall₂ (fun line trace => Shows line (Trace.words trace)) lines traces ∧
      (∀ k trace, traces[k]? = some trace →
        trace.index = k ∧ trace.offset = Trace.total (traces.take k)) ∧
      (∃ factors, Factors (bytes.take (Trace.total traces)) factors ∧
        List.Forall₂ Trace.Tells traces factors) ∧
      (outcome.code = 0 ↔
        ∃ text, Listing.disassemble bytes = .ok text ∧ platform.print text = .ok ()) ∧
      (outcome.code = 0 →
        Trace.total traces = bytes.length ∧
        outcome.stdout =
          "bits 16\n\n" ++ String.join (traces.map fun trace => trace.text ++ "\n") ∧
        ∃ last, rest = last ++ "\n" ∧
          Shows last ("DEBUG dis86::decoder: decoded listing instructions=" ++
            toString traces.length ++ " bytes=" ++ toString bytes.length)) ∧
      ∀ stop, Listing.disassemble bytes = .error stop →
        outcome.code = 1 ∧ outcome.stdout = "" ∧
        traces.length = stop.index ∧ Trace.total traces = stop.offset ∧
        (∀ line ∈ loaded :: lines, ¬ IsFinished line) ∧
        ReportsDecode (platform.display path) stop rest := by
  intro outcome
  -- Lines, listing and place of a fault are all told by the instructions in front of the fault.
  obtain ⟨segments, after, rfl, hend⟩ := exists_segments bytes
  have htotal := Trace.total_ofSegments 0 0 segments
  have hnumbered := Trace.numbered_ofSegments segments
  have hfactors := Trace.exists_factors_ofSegments segments after
  rcases hend with rfl | ⟨cause, hfault⟩
  · rw [List.append_nil] at hread hfactors ⊢
    have hlisting := Listing.disassemble_flatten segments
    obtain ⟨hcode, rest, hstderr, hdone⟩ := run_trace_flatten htrace h hread clock
    obtain ⟨loaded, lines, more, htext, hloaded, hshown, hmore⟩ := exists_lines_of_segments hlines
      hpath clock (flatten segments).length segments
      (List.forall_mem_singleton.mpr (.finished segments.length (flatten segments).length))
    rw [Event.complete, htext, String.append_assoc] at hstderr
    rw [Event.text_loaded] at hloaded
    refine ⟨loaded, lines, _, _, hstderr, hloaded, hshown, hnumbered, hfactors, ?_, ?_, ?_⟩
    · simp only [hlisting, Except.ok.injEq, exists_eq_left', outcome, hcode]
    · intro hzero
      obtain ⟨hstdout, rfl⟩ := hdone hzero
      obtain ⟨last, _, hlast, hnil, rfl⟩ := List.forall₂_cons_right_iff.mp hmore
      cases hnil
      rw [Event.text_finished] at hlast
      rw [htotal, Trace.length_ofSegments, Trace.join_text_ofSegments]
      exact ⟨rfl, hstdout, last, by simp, hlast⟩
    · intro stop hstop
      rw [hlisting] at hstop
      cases hstop
  · have hlisting := Listing.disassemble_faulty segments hfault
    have hrun : outcome = _ := run_trace_faulty htrace h hread hfault clock
    obtain ⟨loaded, lines, more, htext, hloaded, hshown, hmore⟩ := exists_lines_of_segments hlines
      hpath clock (flatten segments ++ after).length segments (List.forall_mem_nil _)
    cases hmore
    rw [List.append_nil, List.map_nil, String.join_nil, String.append_empty] at htext
    rw [hrun, Event.broken, htext]
    refine ⟨loaded, lines, _, _, rfl, Event.text_loaded .. ▸ hloaded, hshown, hnumbered, hfactors,
      ?_, ?_, ?_⟩
    · rw [hlisting]
      simp
    · intro hzero
      cases hzero
    · intro stop hstop
      rw [hlisting] at hstop
      cases hstop
      refine ⟨rfl, rfl, Trace.length_ofSegments .., htotal, ?_, Failure.reportsDecode hreport _⟩
      exact List.forall_mem_cons.mpr ⟨not_isFinished_loaded hloaded, not_isFinished_traces hshown⟩

/-- A file with an addition and a broken instruction behind it, with the lines of its log as they
come and as they show. -/
theorem stderr_tells_run_broken :
    let bytes := [0x01, 0xD8, 0xB8, 0x05]
    let platform := Styled.platform [("in.bin", bytes)]
    let outcome := platform.run (some "trace") (0 : Nat) ["in.bin"]
    platform.parse ["in.bin"] = .ok "in.bin" ∧
    Listing.disassemble bytes = .error ⟨1, 2, .endOfInput 3⟩ ∧
    outcome = ⟨1, "",
      "\x1b[2m2026-01-01T00:00:00.000000Z\x1b[0m \x1b[34mDEBUG\x1b[0m " ++
      "\x1b[2mdis86\x1b[0m\x1b[2m:\x1b[0m loaded input " ++
      "\x1b[3mpath\x1b[0m\x1b[2m=\x1b[0min.bin \x1b[3mlen\x1b[0m\x1b[2m=\x1b[0m4\n" ++
      "\x1b[2m2026-01-01T00:00:00.000001Z\x1b[0m \x1b[35mTRACE\x1b[0m " ++
      "\x1b[2mdis86::decoder\x1b[0m\x1b[2m:\x1b[0m decoded instruction " ++
      "\x1b[3mindex\x1b[0m\x1b[2m=\x1b[0m0 \x1b[3moffset\x1b[0m\x1b[2m=\x1b[0m0 " ++
      "\x1b[3mlen\x1b[0m\x1b[2m=\x1b[0m2 \x1b[3minst\x1b[0m\x1b[2m=\x1b[0madd ax, bx\n" ++
      "Error: decode in.bin\n\nCaused by:\n" ++
      "    0: failed to decode instruction 1 (byte offset 2)\n" ++
      "    1: unexpected end of input at byte offset 3\n"⟩ ∧
    ∃ loaded line rest, outcome.stderr = loaded ++ "\n" ++ (line ++ "\n") ++ rest ∧
      Shows loaded "DEBUG dis86: loaded input path=in.bin len=4" ∧
      Shows line
        "TRACE dis86::decoder: decoded instruction index=0 offset=0 len=2 inst=add ax, bx" ∧
      ReportsDecode "in.bin" ⟨1, 2, .endOfInput 3⟩ rest := by
  intro bytes platform outcome
  have hstop : Listing.disassemble bytes = .error ⟨1, 2, .endOfInput 3⟩ := by
    decide +kernel
  have hpath (size : Nat) : platform.WritesLine (.loaded "in.bin" size) :=
    Styled.writesLines _ _ (Event.isPrintable_text_loaded (by decide) size)
  obtain ⟨loaded, lines, traces, rest, hstderr, hloaded, hlines, hnumbered,
    ⟨factors, hfactors, htells⟩, -, -, hbroken⟩ :=
    stderr_tells_run platform (Styled.writesLines _) (Styled.tracesAll _) (Styled.reportsCauses _)
      ["in.bin"] "in.bin" rfl hpath bytes rfl (0 : Nat)
  obtain ⟨-, -, hcount, htotal, -, hrest⟩ := hbroken _ hstop
  obtain ⟨trace, rfl⟩ := List.length_eq_one_iff.mp hcount
  obtain ⟨hindex, hoffset⟩ := hnumbered 0 trace rfl
  obtain ⟨-, hflatten⟩ := hfactors
  rw [htotal] at hflatten
  obtain ⟨line, _, hline, hnil, rfl⟩ := List.forall₂_cons_right_iff.mp hlines
  cases hnil
  obtain ⟨factor, _, htold, hnil, rfl⟩ := List.forall₂_cons_left_iff.mp htells
  cases hnil
  obtain ⟨hlength, instruction, ⟨later, hread, -⟩, htext⟩ := htold
  rw [List.flatten_singleton] at hflatten
  subst hflatten
  cases hread
  have hwords : trace.words =
      "TRACE dis86::decoder: decoded instruction index=0 offset=0 len=2 inst=add ax, bx" := by
    unfold Trace.words
    rw [hindex, hoffset, hlength, htext, List.take_zero]
    decide +kernel
  have hsize : "DEBUG dis86: loaded input path=" ++ "in.bin" ++ " len=" ++ toString bytes.length =
      "DEBUG dis86: loaded input path=in.bin len=4" := by
    decide +kernel
  rw [hwords] at hline
  replace hloaded : Shows loaded "DEBUG dis86: loaded input path=in.bin len=4" := hsize ▸ hloaded
  exact ⟨rfl, hstop, by decide +kernel, loaded, line, rest, hstderr.trans (by simp), hloaded, hline,
    hrest⟩

end Disasm8086.Command

import Disasm8086.Proofs.Platform

/-!
# A platform with a styled log

A platform that keeps all promises: its log has a time stamp and colours, which come as style codes.
-/
namespace Disasm8086.Command.Styled

open Terminal

/-- A text in the style of a code, and plain text behind it. -/
def styled (code text : String) : String :=
  "\x1b[" ++ code ++ "m" ++ text ++ "\x1b[0m"

/-- The time stamp of a number of microseconds. -/
def stamp (clock : Nat) : String :=
  "2026-01-01T00:00:00." ++ Numeral.padded 10 6 clock ++ "Z"

def levelStyle : Level → String
  | .error => "31"
  | .warn => "33"
  | .info => "32"
  | .debug => "34"
  | .trace => "35"

def field : String × String → String
  | (name, value) => " " ++ styled "3" name ++ styled "2" "=" ++ value

def line (clock : Nat) (event : Event) : String :=
  styled "2" (stamp clock) ++ " " ++ styled (levelStyle event.level) event.level.label ++ " " ++
    styled "2" event.target ++ styled "2" ":" ++ " " ++ event.message ++
    String.join (event.fields.map field)

/-- The levels that a setting lets through. -/
def filter? : String → Option (List Level)
  | "off" => some []
  | "error" => some [.error]
  | "warn" => some [.error, .warn]
  | "info" => some [.error, .warn, .info]
  | "debug" => some [.error, .warn, .info, .debug]
  | "trace" => some [.error, .warn, .info, .debug, .trace]
  | _ => none

def report : List String → String
  | [] => ""
  | [message] => message
  | [message, cause] => message ++ "\n\nCaused by:\n    " ++ cause
  | message :: causes => message ++ "\n\nCaused by:" ++
    String.join (causes.zipIdx.map fun (cause, number) =>
      "\n    " ++ toString number ++ ": " ++ cause)

def usage : String :=
  "error: the following required arguments were not provided:\n  <INPUT>\n\nUsage: dis86 <INPUT>\n"

/-- A machine with these files, at a clock that counts the lines of the log. -/
def platform (files : List (String × List UInt8)) : Platform where
  Argument := String
  Path := String
  Filter := List Level
  Clock := Nat
  parse
    | [path] => .ok path
    | _ => .error ⟨2, "", usage⟩
  display path := path
  read path := match files.lookup path with
    | some bytes => .ok bytes
    | none => .error "No such file or directory (os error 2)"
  print _ := .ok ()
  filter? := filter?
  lenientFilter text := (filter? text).getD []
  admits levels event := levels.contains event.level
  format clock event := (line clock event ++ "\n", clock + 1)
  report := report

variable (files : List (String × List UInt8))

theorem printsAll : (platform files).PrintsAll :=
  fun _ => rfl

theorem tracesAll : (platform files).TracesAll := by
  refine ⟨[.error, .warn, .info, .debug, .trace], rfl, fun event => ?_⟩
  change List.contains [.error, .warn, .info, .debug, .trace] event.level = true
  cases event.level <;> rfl

theorem endsLines : (platform files).EndsLines :=
  fun clock event => ⟨line clock event, rfl⟩

theorem namesErrors : (platform files).NamesErrors := by
  intro (path : String) error h
  change (match files.lookup path with
    | some bytes => Except.ok bytes
    | none => Except.error "No such file or directory (os error 2)") = Except.error error at h
  split at h
  · cases h
  · cases h
    decide

theorem reportsCauses : (platform files).ReportsCauses := by
  constructor
  · intro message cause _
    exact ⟨"", .inl rfl, String.append_empty.symm⟩
  · intro message cause source _ _
    have hone : Nat.toDigits 10 1 = ['1'] := by decide
    refine ⟨"", .inl rfl, ?_⟩
    change report [message, cause, source] = _
    unfold report
    rw [← String.toList_inj]
    simp [hone]

/-- A style code ends with its letter. -/
theorem shownChars_code {code : List Char} (h : 'm' ∉ code) (rest : List Char) :
    shownChars true (code ++ 'm' :: rest) = shownChars false rest := by
  induction code with
  | nil => rfl
  | cons c code ih =>
    rw [List.mem_cons, not_or] at h
    have hopen : decide (c ≠ 'm') = true := decide_eq_true (Ne.symm h.1)
    rw [List.cons_append, shownChars, if_pos rfl, hopen, ih h.2]

/-- A styled text shows the text. -/
theorem shownChars_styled {code text : String} (hcode : 'm' ∉ code.toList)
    (htext : escape ∉ text.toList) (rest : List Char) :
    shownChars false ((styled code text).toList ++ rest) =
      text.toList ++ shownChars false rest := by
  have hbegin (more : List Char) :
      shownChars false ('\x1b' :: '[' :: more) = shownChars true more := rfl
  have hchars : (styled code text).toList ++ rest = '\x1b' :: '[' :: (code.toList ++ 'm' ::
      (text.toList ++ '\x1b' :: '[' :: (['0'] ++ 'm' :: rest))) := by
    simp [styled]
  rw [hchars, hbegin, shownChars_code hcode, shownChars_append htext, hbegin,
    shownChars_code (by decide)]

/-- The fraction of a time stamp is a row of digits. -/
theorem isDigit_of_mem_padded {c : Char} {width n : Nat}
    (h : c ∈ (Nat.toDigits 10 n).leftpad width '0') : c.isDigit = true := by
  rw [List.leftpad, List.mem_append] at h
  rcases h with h | h
  · rw [List.eq_of_mem_replicate h]
    rfl
  · exact isDigit_of_mem_toDigits h

theorem isPrintable_stamp (clock : Nat) : IsPrintable (stamp clock) := by
  have hdate : IsPrintable "2026-01-01T00:00:00." := by decide
  have hzone : IsPrintable "Z" := by decide
  exact (hdate.append (isPrintable_of_isDigit fun c => isDigit_of_mem_padded)).append hzone

theorem blank_not_mem_stamp (clock : Nat) : ' ' ∉ (stamp clock).toList := by
  have hdate : ' ' ∉ "2026-01-01T00:00:00.".toList := by decide
  have hzone : ' ' ∉ "Z".toList := by decide
  have hfraction : ' ' ∉ (Numeral.padded 10 6 clock).toList := by
    intro h
    rw [Numeral.padded, String.toList_ofList] at h
    cases isDigit_of_mem_padded h
  unfold stamp
  simp only [String.toList_append, List.mem_append, not_or]
  exact ⟨⟨hdate, hfraction⟩, hzone⟩

/-- The parts of fields whose text is printable. -/
theorem isPrintable_of_cons {name value : String} {fields : List (String × String)}
    (h : IsPrintable (String.join (((name, value) :: fields).map Event.fieldText))) :
    IsPrintable name ∧ IsPrintable value ∧
      IsPrintable (String.join (fields.map Event.fieldText)) := by
  simp only [List.map_cons, String.join_cons, Event.fieldText, isPrintable_append_iff] at h
  obtain ⟨⟨⟨⟨-, hname⟩, -⟩, hvalue⟩, hfields⟩ := h
  exact ⟨hname, hvalue, hfields⟩

/-- The fields of an event show their names and values. -/
theorem shownChars_fields {fields : List (String × String)}
    (h : IsPrintable (String.join (fields.map Event.fieldText))) :
    shownChars false (String.join (fields.map field)).toList =
      (String.join (fields.map Event.fieldText)).toList := by
  induction fields with
  | nil => rfl
  | cons first fields ih =>
    obtain ⟨name, value⟩ := first
    obtain ⟨hname, hvalue, hfields⟩ := isPrintable_of_cons h
    have hchars : (String.join (((name, value) :: fields).map field)).toList =
        [' '] ++ ((styled "3" name).toList ++ ((styled "2" "=").toList ++ (value.toList ++
          (String.join (fields.map field)).toList))) := by
      simp [field]
    rw [hchars, shownChars_append (by decide), shownChars_styled (by decide) hname.escape_not_mem,
      shownChars_styled (by decide) (by decide), shownChars_append hvalue.escape_not_mem,
      ih hfields]
    simp [Event.fieldText]

theorem levelStyle_open (level : Level) : 'm' ∉ (levelStyle level).toList := by
  cases level <;> decide

theorem isPrintable_label (level : Level) : IsPrintable level.label := by
  cases level <;> decide

/-- The parts of an event whose text is printable. -/
theorem isPrintable_parts {event : Event} (h : IsPrintable event.text) :
    IsPrintable event.target ∧ IsPrintable event.message ∧
      IsPrintable (String.join (event.fields.map Event.fieldText)) := by
  simp only [Event.text, isPrintable_append_iff] at h
  obtain ⟨⟨⟨⟨-, htarget⟩, -⟩, hmessage⟩, hfields⟩ := h
  exact ⟨htarget, hmessage, hfields⟩

theorem shown_line (clock : Nat) {event : Event} (h : IsPrintable event.text) :
    shown (line clock event) = stamp clock ++ " " ++ event.text := by
  obtain ⟨htarget, hmessage, hfields⟩ := isPrintable_parts h
  have hchars : (line clock event).toList = (styled "2" (stamp clock)).toList ++ ([' '] ++
      ((styled (levelStyle event.level) event.level.label).toList ++ ([' '] ++
        ((styled "2" event.target).toList ++ ((styled "2" ":").toList ++ ([' '] ++
          (event.message.toList ++ (String.join (event.fields.map field)).toList))))))) := by
    simp [line]
  rw [shown, hchars, shownChars_styled (by decide) (isPrintable_stamp clock).escape_not_mem,
    shownChars_append (by decide),
    shownChars_styled (levelStyle_open _) (isPrintable_label _).escape_not_mem,
    shownChars_append (by decide), shownChars_styled (by decide) htarget.escape_not_mem,
    shownChars_styled (by decide) (by decide), shownChars_append (by decide),
    shownChars_append hmessage.escape_not_mem, shownChars_fields hfields, ← String.toList_inj]
  simp [Event.text]

theorem isLine_styled {code text : String} (hcode : IsLine code) (htext : IsPrintable text) :
    IsLine (styled code text) := by
  have hopen : IsLine "\x1b[" := by decide
  have hletter : IsLine "m" := by decide
  have hclose : IsLine "\x1b[0m" := by decide
  exact (((hopen.append hcode).append hletter).append htext.isLine).append hclose

theorem isLine_fields {fields : List (String × String)}
    (h : IsPrintable (String.join (fields.map Event.fieldText))) :
    IsLine (String.join (fields.map field)) := by
  induction fields with
  | nil => decide
  | cons first fields ih =>
    obtain ⟨name, value⟩ := first
    obtain ⟨hname, hvalue, hfields⟩ := isPrintable_of_cons h
    have hblank : IsLine " " := by decide
    have hsign : IsLine (styled "2" "=") := by decide
    rw [List.map_cons, String.join_cons]
    exact (((hblank.append (isLine_styled (by decide) hname)).append hsign).append
      hvalue.isLine).append (ih hfields)

theorem isLine_line (clock : Nat) {event : Event} (h : IsPrintable event.text) :
    IsLine (line clock event) := by
  obtain ⟨htarget, hmessage, hfields⟩ := isPrintable_parts h
  have hblank : IsLine " " := by decide
  have hcolon : IsLine (styled "2" ":") := by decide
  have hcode : IsLine "2" := by decide
  have hlevel : IsLine (levelStyle event.level) := by
    cases event.level <;> decide
  have hstamp := (isLine_styled hcode (isPrintable_stamp clock)).append hblank
  have hlabel := isLine_styled hlevel (isPrintable_label event.level)
  have hbegin := (hstamp.append hlabel).append hblank
  have hsource := (hbegin.append (isLine_styled hcode htarget)).append hcolon
  exact ((hsource.append hblank).append hmessage.isLine).append (isLine_fields hfields)

theorem writesLines : (platform files).WritesLines := by
  intro event hevent clock
  exact ⟨line clock event, rfl, isLine_line clock hevent, stamp clock, blank_not_mem_stamp clock,
    shown_line clock hevent⟩

end Disasm8086.Command.Styled

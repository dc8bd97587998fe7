import Disasm8086.Command.Event
import Disasm8086.Command.Host.Pattern
import Disasm8086.Command.Host.Text.Alphanumeric
import Disasm8086.Command.Host.Text.Bytes
import Disasm8086.Command.Host.Threshold

/-!
# Filters of the log

A setting is a list of directives with commas between them. A directive gives a level to the events
of a target, of a span, or with a field: `target[span{field=value}]=level`, of which each part may
be left out. An event is let through by the most specific directive that concerns it.
-/
namespace Disasm8086.Command

/-- A field that an event must have, perhaps with a value. -/
structure FieldTest where
  name : String
  value : Option String
  deriving DecidableEq, Repr

/-- The test `name` or `name=value`. A value is a number or a pattern. -/
def FieldTest.ofText? (text : String) : Option FieldTest :=
  match text.splitOn "=" with
  | name :: value :: _ =>
    if Numeral.isReal value.toList || Pattern.isWellFormed value then
      some ⟨name, some value⟩
    else none
  | _ => if text = "" then none else some ⟨text, none⟩

structure Directive where
  target : Option String
  span : Option String
  field : Option FieldTest
  threshold : Threshold
  deriving DecidableEq, Repr

namespace Directive

/-- The characters that a directive without a bracket may begin with. -/
def canBegin (c : Char) : Bool :=
  ['-', ':', '_'].contains c || Text.isAlphanumeric c

/-- A text alone is a level for all events, or a target all of whose events pass. -/
def ofWord (word : String) : Directive :=
  match Threshold.ofText? word with
  | some threshold => ⟨none, none, none, threshold⟩
  | none => ⟨some word, none, none, .ofLevel .trace⟩

/-- The directive with the threshold of a text; no text stands for the one that lets all through. -/
def withThreshold? (directive : Directive) (text : String) : Option Directive :=
  if text = "" then some { directive with threshold := .ofLevel .trace }
  else (Threshold.ofText? text).map fun threshold => { directive with threshold }

/-- The end of a directive, behind place `start`: nothing, or a level. -/
def finish? (text : List Char) (directive : Directive) (start : Nat) :
    List Char → Option Directive
  | [] => some directive
  | '=' :: _ => do
    let (_, level) ← Text.splitAt? (start + 1) text
    directive.withThreshold? (String.ofList level)
  | _ => none

/-- What stands behind an opening bracket, from place `start` on. -/
def ofBracket? (text : List Char) (target : Option String) (start : Nat) (rest : List Char) :
    Option Directive := do
  let span := rest.takeWhile fun c => c ≠ ']' && c ≠ '{'
  let stop := start + Text.byteCount span
  let name := String.ofList (← Text.cut? start stop text)
  match rest.drop span.length with
  | ']' :: rest => finish? text ⟨target, some name, none, .ofLevel .trace⟩ (stop + 1) rest
  | _ :: rest =>
    let field := rest.takeWhile (· ≠ '}')
    let fieldStop := stop + 1 + Text.byteCount field
    match rest.drop field.length with
    | _ :: ']' :: rest =>
      let test ← FieldTest.ofText? (String.ofList (← Text.cut? (stop + 1) fieldStop text))
      finish? text ⟨target, if name = "" then none else some name, some test, .ofLevel .trace⟩
        (fieldStop + 2) rest
    | _ => none
  | [] => none

/-- The directive that a text writes. Blanks around it are passed over when its parts are looked
for, but the parts are cut from the text with its blanks. -/
def ofText? (text : List Char) : Option Directive :=
  match Text.trim text with
  | [] => none
  | '[' :: rest => ofBracket? text none 1 rest
  | c :: rest =>
    if canBegin c then
      let name := (c :: rest).takeWhile fun c => c ≠ '=' && c ≠ '['
      match (c :: rest).drop name.length with
      | [] => some (ofWord (String.ofList text))
      | rest => do
        let stop := Text.byteCount name
        let target := some (String.ofList (← Text.cut? 0 stop text))
        match rest with
        | '[' :: rest => ofBracket? text target (stop + 1) rest
        | rest => finish? text ⟨target, none, none, .ofLevel .trace⟩ stop rest
    else none

/-- The message of an event counts as a field of its own. -/
def hasField (event : Event) (name : String) : Bool :=
  name = "message" || event.fields.any (·.1 = name)

/-- Spans and the values of fields are no matter of events. -/
def concernsEvents (directive : Directive) : Bool :=
  directive.span.isNone && directive.field.all (·.value.isNone)

/-- A target stands for all targets that begin with it. -/
def concerns (directive : Directive) (event : Event) : Bool :=
  directive.concernsEvents && directive.target.all (event.target.startsWith ·) &&
    directive.field.all (hasField event ·.name)

def targetSize (directive : Directive) : Nat :=
  (directive.target.map String.utf8ByteSize).getD 0

def fieldName (directive : Directive) : String :=
  (directive.field.map FieldTest.name).getD ""

/-- Of two directives that concern an event, the one with the longer target is more specific; of
equally long targets, the one with a field; of two fields, the one whose name is later in order. -/
def yieldsTo (directive other : Directive) : Bool :=
  directive.targetSize < other.targetSize ||
    directive.targetSize = other.targetSize && !(other.fieldName < directive.fieldName)

end Directive

structure Filter where
  directives : List Directive
  deriving DecidableEq, Repr

namespace Filter

/-- The filter of a setting, each of whose directives can be read. -/
def ofText? (text : String) : Option Filter :=
  (((text.splitOn ",").filter (· ≠ "")).mapM fun directive =>
    Directive.ofText? directive.toList).map Filter.mk

/-- The filter of the directives that can be read. -/
def ofReadable (text : String) : Filter :=
  ⟨((text.splitOn ",").filter (· ≠ "")).filterMap fun directive =>
    Directive.ofText? directive.toList⟩

/-- The directive that decides on an event: the most specific one, of equals the last. -/
def deciding (filter : Filter) (event : Event) : Option Directive :=
  (filter.directives.filter (·.concerns event)).foldl (fun best directive =>
    if best.all (·.yieldsTo directive) then some directive else best) none

def admits (filter : Filter) (event : Event) : Bool :=
  (filter.deciding event).any (·.threshold.admits event.level)

end Filter

end Disasm8086.Command

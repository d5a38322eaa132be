import SessionCapture.Numeral
import SessionCapture.Record.Basic

/-!
# Lines of a transcript

A line is written as its tag in angle brackets and its fields, parted by commas.
Timestamps have ten digits, except that of an event line.
-/

namespace SessionCapture

inductive Line where
  /-- The structure of the container, or how the decode ended. -/
  | notice (text : String)
  | movement (movement : Movement)
  | click (click : Click)
  | event (header : EventHeader)
  /-- One payload word of the event before it. -/
  | data (timestamp : UInt32) (index : Nat) (word : UInt16)
  /-- What a record means. -/
  | human (timestamp : Option UInt32) (text : String)
  | corrupt (fragment : Fragment)
deriving DecidableEq, Repr

namespace Line

def tag : Line → String
  | .notice _ => "Meta"
  | .movement _ => "Movement"
  | .click _ => "Click"
  | .event _ => "Event"
  | .data _ _ _ => "Data"
  | .human _ _ => "Human"
  | .corrupt fragment => fragment.kind.corruptTag

private def stamp (timestamp : UInt32) : String :=
  Numeral.tenDigits timestamp.toNat

/-- A complete event header is closed by a zero, as on an event line. -/
private def fragmentFields (fragment : Fragment) : List String :=
  match fragment.fields with
  | [] => []
  | timestamp :: rest =>
      let closing :=
        if fragment.kind = .event ∧ fragment.isComplete then ["0"] else []
      stamp timestamp :: rest.map toString ++ closing

def fields : Line → List String
  | .notice text => [Numeral.tenDigits 0, text]
  | .movement m => [stamp m.timestamp, toString m.x, toString m.y]
  | .click c =>
      [stamp c.timestamp, toString c.x, toString c.y, toString c.tag,
        toString c.value]
  | .event h =>
      [toString h.timestamp, toString h.x, toString h.y, toString h.tag,
        toString h.length, "0"]
  | .data timestamp index word =>
      [stamp timestamp, Numeral.tenDigits index, toString word]
  | .human (some timestamp) text => [stamp timestamp, text]
  | .human none text => [text]
  | .corrupt fragment => fragmentFields fragment

def text (line : Line) : String :=
  String.intercalate "," (s!"<{line.tag}>" :: line.fields)

/-- The lines as one text, each ended by a line feed. -/
def written (lines : List Line) : String :=
  String.join (lines.map fun line => line.text ++ "\n")

end Line

end SessionCapture

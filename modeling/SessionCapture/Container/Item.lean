import SessionCapture.Numeral
import SessionCapture.Record.Read

/-!
# What a container holds

Walking a capture meets notes, which state the structure of the container, and
records, whole or cut short.  The ends of buffers and sections are items too, so
that the items of a walk tell how far it came.
-/

namespace SessionCapture

inductive Note where
  | fileVersion (version : UInt16)
  | sessionId (id : UInt16)
  | sectionCount (count : UInt32)
  | sectionVersion (version : UInt16)
  | sectionId (id : UInt16)
  | registerCount (count : UInt32)
  | register (index : Nat) (value : UInt16)
  | bufferCount (count : UInt32)
  | bufferOffset (index offset : Nat)
  | bufferTag (index : Nat) (tag : UInt16)
  | bufferLength (index : Nat) (words : UInt32)
deriving DecidableEq, Repr

def Note.text : Note → String
  | fileVersion version => s!"File Format Version:{version}"
  | sessionId id => s!"Session ID:{id}"
  | sectionCount count => s!"Section Count:{count}"
  | sectionVersion version => s!"Section Format Version:{version}"
  | sectionId id => s!"Section ID:{id}"
  | registerCount count => s!"Register Count:{count}"
  | register index value => s!"Register({index}):{value}"
  | bufferCount count => s!"Buffers Count:{count}"
  | bufferOffset index offset =>
      s!"Buffer({index}) File Offset:{Numeral.hex 2 offset}"
  | bufferTag index tag => s!"Buffer Type({index}):{tag}"
  | bufferLength index words => s!"Buffer({index}) Length:{words}"

inductive Item where
  | note (note : Note)
  | movement (movement : Movement)
  | click (click : Click)
  | event (event : Event)
  | corrupt (fragment : Fragment)
  | desync (buffer : Nat) (reason : Desync)
  | bufferEnd
  | sectionEnd
deriving DecidableEq, Repr

def Item.note? : Item → Option Note
  | .note found => some found
  | _ => none

end SessionCapture

/-!
# Numerals of a fixed least width

Digits in a base, filled up on the left with zeros to a given width.  A number
that needs more digits than the width is written with all of them.
-/

namespace SessionCapture

namespace Numeral

def padded (base width number : Nat) : String :=
  String.ofList ((Nat.toDigits base number).leftpad width '0')

/-- A decimal numeral of at least ten digits. -/
def tenDigits (number : Nat) : String :=
  padded 10 10 number

/-- A hexadecimal numeral of at least `width` digits, in small letters. -/
def hex (width number : Nat) : String :=
  padded 16 width number

end Numeral

end SessionCapture

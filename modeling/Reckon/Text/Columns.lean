namespace Reckon.Text

/-!
# Columns

Listings align their fields by counting characters.
-/

/-- Blanks behind a text up to the given width. -/
def padRight (width : Nat) (text : String) : String :=
  text ++ String.ofList (List.replicate (width - text.length) ' ')

/-- Blanks before a text up to the given width. -/
def padLeft (width : Nat) (text : String) : String :=
  String.ofList (List.replicate (width - text.length) ' ') ++ text

/-- A number in base ten. -/
def integer (number : Int) : String :=
  match number with
  | .ofNat magnitude => magnitude.repr
  | .negSucc magnitude => "-" ++ (magnitude + 1).repr

/-- A number with zeros before its digits up to the given width, the sign included. -/
def zeroPadded (width : Nat) (number : Int) : String :=
  if number < 0 then
    let digits := number.natAbs.repr
    "-" ++ String.ofList (List.replicate (width - 1 - digits.length) '0') ++ digits
  else
    let digits := number.natAbs.repr
    String.ofList (List.replicate (width - digits.length) '0') ++ digits

/-- Texts with a separator between each two. -/
def joined (separator : String) (texts : List String) : String :=
  separator.intercalate texts

end Reckon.Text

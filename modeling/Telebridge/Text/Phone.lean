set_option autoImplicit false

/-! # Phone numbers

Texts that look like phone numbers: digits with the usual dialling punctuation. What identifies a
number is its digits. -/

namespace Telebridge.Phone

/-- The digits of a text. -/
def digits (s : String) : String :=
  String.ofList (s.toList.filter Char.isDigit)

/-- Punctuation of phone numbers. -/
def isPunctuation (c : Char) : Bool :=
  ['+', '-', '(', ')', ' ', '\t'].contains c

/-- Nothing but digits and punctuation, and at least one digit. -/
def isNumber (s : String) : Bool :=
  s.toList.all (fun c => c.isDigit || isPunctuation c) && s.toList.any Char.isDigit

end Telebridge.Phone

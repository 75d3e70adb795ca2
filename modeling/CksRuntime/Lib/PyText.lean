import Mathlib.Data.List.DropRight
import Mathlib.Data.String.Basic

/-!
# Texts, as Python reads them

The methods of `str` that take a text apart, and `int` of a text: blanks around it, a sign, decimal
digits of any script, and single underscores between digits.
-/

set_option autoImplicit false

namespace PyText

/-- `s.lstrip`, of the characters `p`. -/
def lstrip (p : Char → Bool) (s : String) : String := String.ofList (s.toList.dropWhile p)

/-- `s.strip`, of the characters `p`. -/
def stripChars (p : Char → Bool) (s : List Char) : List Char := (s.dropWhile p).rdropWhile p

/-- `s.split(c)`. -/
def split (c : Char) (s : String) : List String := (s.toList.splitOn c).map String.ofList

/-- `s.replace(c, d)`. -/
def replace (c d : Char) (s : String) : String :=
  String.ofList (s.toList.map fun x => if x = c then d else x)

/-- `sub in s`. -/
def contains (sub s : String) : Bool := s.toList.tails.any fun t => sub.toList.isPrefixOf t

/-- `s.removesuffix(suffix)`. -/
def removesuffix (suffix s : String) : String :=
  if suffix.toList.isSuffixOf s.toList then
    String.ofList (s.toList.take (s.toList.length - suffix.toList.length))
  else s

/-! ## `int` -/

/-- Where the decimal digits of each script begin, in the Unicode 15 of Python 3.12. -/
def zeros : List Nat :=
  [0x30, 0x660, 0x6f0, 0x7c0, 0x966, 0x9e6, 0xa66, 0xae6, 0xb66, 0xbe6, 0xc66, 0xce6, 0xd66, 0xde6,
    0xe50, 0xed0, 0xf20, 0x1040, 0x1090, 0x17e0, 0x1810, 0x1946, 0x19d0, 0x1a80, 0x1a90, 0x1b50,
    0x1bb0, 0x1c40, 0x1c50, 0xa620, 0xa8d0, 0xa900, 0xa9d0, 0xa9f0, 0xaa50, 0xabf0, 0xff10, 0x104a0,
    0x10d30, 0x11066, 0x110f0, 0x11136, 0x111d0, 0x112f0, 0x11450, 0x114d0, 0x11650, 0x116c0,
    0x11730, 0x118e0, 0x11950, 0x11c50, 0x11d50, 0x11da0, 0x11f50, 0x16a60, 0x16ac0, 0x16b50,
    0x1d7ce, 0x1d7d8, 0x1d7e2, 0x1d7ec, 0x1d7f6, 0x1e140, 0x1e2f0, 0x1e4f0, 0x1e950, 0x1fbf0]

/-- The value of a decimal digit. -/
def decimal (c : Char) : Option Nat :=
  (zeros.find? fun z => z ≤ c.toNat ∧ c.toNat < z + 10).map (c.toNat - ·)

/-- A blank, to `int`. The separators from 0x1c to 0x1f are blanks to `str.isspace` alone. -/
def isBlank (c : Char) : Bool :=
  (9 ≤ c.toNat && c.toNat ≤ 13) || (0x2000 ≤ c.toNat && c.toNat ≤ 0x200a) ||
    [0x20, 0x85, 0xa0, 0x1680, 0x2028, 0x2029, 0x202f, 0x205f, 0x3000].contains c.toNat

/-- `str.isspace`, of one character; also `\s` of a regular expression. -/
def isspace (c : Char) : Bool := isBlank c || (0x1c ≤ c.toNat && c.toNat ≤ 0x1f)

/-- Digits, with at most one underscore between two. -/
def digits : List Char → Option (List Nat)
  | [] => none
  | [c] => (decimal c).map fun d => [d]
  | c :: '_' :: cs => do
    let d ← decimal c
    let ds ← digits cs
    some (d :: ds)
  | c :: cs => do
    let d ← decimal c
    let ds ← digits cs
    some (d :: ds)

/-- `sys.get_int_max_str_digits()`, as the interpreter sets it. -/
def maxStrDigits : Nat := 4300

/-- Digits without a sign; `int` takes only so many. -/
def natural (s : List Char) : Option Int := do
  let ds ← digits s
  if maxStrDigits < ds.length then none
  else some (ds.foldl (fun n d => 10 * n + d) 0 : Nat)

/-- `int(s)`: none where it raises ValueError. -/
def int (s : String) : Option Int :=
  match stripChars isBlank s.toList with
  | '-' :: cs => (natural cs).map (- ·)
  | '+' :: cs => natural cs
  | cs => natural cs

end PyText

import Mathlib.Data.Bool.AllAny
import Mathlib.Data.List.Basic
import Mathlib.Data.Char
import Mathlib.Logic.Function.Basic
import Mathlib.Data.String.Basic

/-!
# JSON and its text

JSON values and the ASCII text they are written as, blanks after the separators and the members of
an object in the order given (`sortKeys` puts them in the order of their keys). The text tells the
value: what is written at the start of a longer text is one value, if what comes after cannot go on
with a word (`write_append_inj`). It is printable throughout (`write_printable`).
-/

set_option autoImplicit false

namespace JsonText

/-! ## Words -/

/-- The decimal text of an int. -/
def intText : Int → List Char
  | .ofNat n => Nat.toDigits 10 n
  | .negSucc n => '-' :: Nat.toDigits 10 (n + 1)

/-- What the text of an atom is made of. -/
def IsWordChar (c : Char) : Prop := c.isAlphanum ∨ c = '+' ∨ c = '-' ∨ c = '.'

instance (c : Char) : Decidable (IsWordChar c) := inferInstanceAs (Decidable (_ ∨ _))

/-- A float, as the text that is written for it and for no other word. -/
structure FloatText where
  text : List Char
  nonempty : text ≠ []
  word : ∀ c ∈ text, IsWordChar c
  not_keyword : text ∉ ["null".toList, "true".toList, "false".toList]
  not_int : ∀ n, text ≠ intText n

/-- A value without parts, strings apart. -/
inductive Atom
  | null
  | bool (b : Bool)
  | int (n : Int)
  | float (f : FloatText)

/-- What it is written as. -/
def Atom.text : Atom → List Char
  | .null => "null".toList
  | .bool true => "true".toList
  | .bool false => "false".toList
  | .int n => intText n
  | .float f => f.text

/-- A JSON value; an object keeps the order of its members. -/
inductive Json
  | atom (a : Atom)
  | string (s : List Char)
  | array (elements : List Json)
  | object (members : List (List Char × Json))

/-! ## Strings -/

/-- The last hexadecimal digit. -/
def hexDigit (n : Nat) : Char := Nat.digitChar (n % 16)

/-- Four hexadecimal digits. -/
def hex4 (n : Nat) : List Char :=
  [hexDigit (n / 4096), hexDigit (n / 256), hexDigit (n / 16), hexDigit n]

/-- The escape of one unit. -/
def unicodeEscape (n : Nat) : List Char := '\\' :: 'u' :: hex4 n

/-- The characters with an escape of two characters. -/
def shortEscapes : List (Char × Char) :=
  [('"', '"'), ('\\', '\\'), ('\n', 'n'), ('\r', 'r'), ('\t', 't'), (Char.ofNat 0xc, 'f'),
    (Char.ofNat 8, 'b')]

/-- A character of a string; one above the basic plane is a surrogate pair. -/
def escapeChar (c : Char) : List Char :=
  match shortEscapes.lookup c with
  | some d => ['\\', d]
  | none =>
    if 0x20 ≤ c.toNat ∧ c.toNat ≤ 0x7e then [c]
    else if c.toNat < 0x10000 then unicodeEscape c.toNat
    else
      unicodeEscape (0xd800 + (c.toNat - 0x10000) / 0x400) ++
        unicodeEscape (0xdc00 + (c.toNat - 0x10000) % 0x400)

/-- A string between quotes. -/
def writeString (s : List Char) : List Char := '"' :: (s.flatMap escapeChar ++ ['"'])

/-! ## Values -/

mutual

/-- The text of a value, with no blanks but those of `json.dumps`. -/
def write : Json → List Char
  | .atom a => a.text
  | .string s => writeString s
  | .array [] => ['[', ']']
  | .array (x :: xs) => '[' :: (write x ++ writeElements xs)
  | .object [] => ['{', '}']
  | .object ((k, x) :: ms) => '{' :: (writeString k ++ ':' :: ' ' :: (write x ++ writeMembers ms))

/-- The elements after the first one. -/
def writeElements : List Json → List Char
  | [] => [']']
  | x :: xs => ',' :: ' ' :: (write x ++ writeElements xs)

/-- The members after the first one. -/
def writeMembers : List (List Char × Json) → List Char
  | [] => ['}']
  | (k, x) :: ms =>
    ',' :: ' ' :: (writeString k ++ ':' :: ' ' :: (write x ++ writeMembers ms))

end

section
variable {k : List Char} {x : Json} {xs : List Json} {ms : List (List Char × Json)}

@[simp] theorem write_atom (a : Atom) : write (.atom a) = a.text := rfl

@[simp] theorem write_string (s : List Char) : write (.string s) = writeString s := rfl

@[simp] theorem write_array_nil : write (.array []) = ['[', ']'] := rfl

@[simp] theorem write_array_cons :
    write (.array (x :: xs)) = '[' :: (write x ++ writeElements xs) := rfl

@[simp] theorem write_object_nil : write (.object []) = ['{', '}'] := rfl

@[simp] theorem write_object_cons : write (.object ((k, x) :: ms)) =
    '{' :: (writeString k ++ ':' :: ' ' :: (write x ++ writeMembers ms)) := rfl

@[simp] theorem writeElements_nil : writeElements [] = [']'] := rfl

@[simp] theorem writeElements_cons :
    writeElements (x :: xs) = ',' :: ' ' :: (write x ++ writeElements xs) := rfl

@[simp] theorem writeMembers_nil : writeMembers [] = ['}'] := rfl

@[simp] theorem writeMembers_cons : writeMembers ((k, x) :: ms) =
    ',' :: ' ' :: (writeString k ++ ':' :: ' ' :: (write x ++ writeMembers ms)) := rfl

end

mutual

/-- The members of every object in the order of their keys. -/
def sortKeys : Json → Json
  | .atom a => .atom a
  | .string s => .string s
  | .array xs => .array (sortElements xs)
  | .object ms => .object ((sortMembers ms).mergeSort fun x y => decide (x.1 ≤ y.1))

/-- The elements, each sorted. -/
def sortElements : List Json → List Json
  | [] => []
  | x :: xs => sortKeys x :: sortElements xs

/-- The values of the members, each sorted. -/
def sortMembers : List (List Char × Json) → List (List Char × Json)
  | [] => []
  | (k, x) :: ms => (k, sortKeys x) :: sortMembers ms

end

theorem sortMembers_eq (ms : List (List Char × Json)) :
    sortMembers ms = ms.map fun m => (m.1, sortKeys m.2) := by
  induction ms with
  | nil => rfl
  | cons m ms ih => rw [sortMembers, ih, List.map_cons]

/-! ## Words -/

theorem intText_chars {n : Int} {c : Char} (h : c ∈ intText n) : c.isDigit ∨ c = '-' := by
  cases n with
  | ofNat n => exact .inl (Nat.isDigit_of_mem_toDigits (by decide) (by decide) h)
  | negSucc n =>
    rcases List.mem_cons.1 h with rfl | h
    · exact .inr rfl
    · exact .inl (Nat.isDigit_of_mem_toDigits (by decide) (by decide) h)

theorem intText_ne_nil (n : Int) : intText n ≠ [] := by
  cases n with
  | ofNat n => exact Nat.toDigits_ne_nil
  | negSucc n => simp [intText]

theorem toDigits_injective : Function.Injective (Nat.toDigits 10) := by
  intro m n h
  rw [← Nat.ofDigitChars_ten_toDigits (n := m), h, Nat.ofDigitChars_ten_toDigits]

theorem dash_notMem_toDigits (n : Nat) : '-' ∉ Nat.toDigits 10 n := fun h =>
  absurd (Nat.isDigit_of_mem_toDigits (by decide) (by decide) h) (by decide)

theorem intText_injective : Function.Injective intText := by
  intro m n h
  cases m with
  | ofNat m =>
    cases n with
    | ofNat n => exact congrArg Int.ofNat (toDigits_injective h)
    | negSucc n =>
      refine absurd ?_ (dash_notMem_toDigits m)
      show '-' ∈ intText (.ofNat m)
      rw [h]
      simp [intText]
  | negSucc m =>
    cases n with
    | ofNat n =>
      refine absurd ?_ (dash_notMem_toDigits n)
      show '-' ∈ intText (.ofNat n)
      rw [← h]
      simp [intText]
    | negSucc n =>
      have h := toDigits_injective (List.cons.inj h).2
      exact congrArg Int.negSucc (Nat.succ.inj h)

theorem Atom.text_ne_nil (a : Atom) : a.text ≠ [] := by
  cases a with
  | null => decide
  | bool b => cases b <;> decide
  | int n => exact intText_ne_nil n
  | float f => exact f.nonempty

theorem Atom.isWordChar {a : Atom} {c : Char} (h : c ∈ a.text) : IsWordChar c := by
  cases a with
  | null => exact List.all_iff_forall_prop.1 (by decide) c h
  | bool b => cases b <;> exact List.all_iff_forall_prop.1 (by decide) c h
  | int n =>
    rcases intText_chars h with hc | rfl
    · exact .inl (by simp [Char.isAlphanum, hc])
    · decide
  | float f => exact f.word c h

/-- Neither digit nor dash, so in no number. -/
theorem intText_ne {n : Int} {s : List Char} {c : Char} (hc : c ∈ s) (hd : c.isDigit = false)
    (hm : c ≠ '-') : intText n ≠ s := by
  rintro rfl
  rcases intText_chars hc with h | h
  · simp [hd] at h
  · exact hm h

theorem Atom.text_injective : Function.Injective Atom.text := by
  intro a b h
  cases a with
  | null =>
    cases b with
    | null => rfl
    | bool b => cases b <;> exact absurd h (by decide)
    | int n => exact absurd h.symm (intText_ne (c := 'u') (by decide) (by decide) (by decide))
    | float f =>
      refine absurd ?_ f.not_keyword
      rw [show f.text = Atom.null.text from h.symm]
      decide
  | bool a =>
    cases b with
    | null => cases a <;> exact absurd h (by decide)
    | bool b => cases a <;> cases b <;> first | rfl | exact absurd h (by decide)
    | int n =>
      refine absurd h.symm (intText_ne (c := 'e') ?_ (by decide) (by decide))
      cases a <;> decide
    | float f =>
      refine absurd ?_ f.not_keyword
      rw [show f.text = (Atom.bool a).text from h.symm]
      cases a <;> decide
  | int m =>
    cases b with
    | null => exact absurd h (intText_ne (c := 'u') (by decide) (by decide) (by decide))
    | bool b =>
      refine absurd h (intText_ne (c := 'e') ?_ (by decide) (by decide))
      cases b <;> decide
    | int n => exact congrArg _ (intText_injective h)
    | float f => exact absurd h.symm (f.not_int m)
  | float f =>
    cases b with
    | null =>
      refine absurd ?_ f.not_keyword
      rw [show f.text = Atom.null.text from h]
      decide
    | bool b =>
      refine absurd ?_ f.not_keyword
      rw [show f.text = (Atom.bool b).text from h]
      cases b <;> decide
    | int n => exact absurd h (f.not_int n)
    | float g =>
      cases f
      cases g
      cases h
      rfl

/-! ## Strings -/

theorem hexDigit_isHex : ∀ n < 16, (Nat.digitChar n).toNat =
    if n < 10 then n + 48 else n + 87 := by decide

theorem hexDigit_inj {m n : Nat} (h : hexDigit m = hexDigit n) : m % 16 = n % 16 := by
  have hm := hexDigit_isHex (m % 16) (Nat.mod_lt m (by omega))
  have hn := hexDigit_isHex (n % 16) (Nat.mod_lt n (by omega))
  unfold hexDigit at h
  rw [h, hn] at hm
  split at hm <;> split at hm <;> omega

theorem hex4_inj {m n : Nat} (hm : m < 0x10000) (hn : n < 0x10000) (h : hex4 m = hex4 n) :
    m = n := by
  simp only [hex4, List.cons.injEq, and_true] at h
  obtain ⟨h3, h2, h1, h0⟩ := h
  have h3 := hexDigit_inj h3
  have h2 := hexDigit_inj h2
  have h1 := hexDigit_inj h1
  have h0 := hexDigit_inj h0
  omega

theorem unicodeEscape_append_inj {m n : Nat} {r r' : List Char} (hm : m < 0x10000)
    (hn : n < 0x10000) (h : unicodeEscape m ++ r = unicodeEscape n ++ r') : m = n ∧ r = r' := by
  have h : hex4 m ++ r = hex4 n ++ r' := by simpa [unicodeEscape] using h
  obtain ⟨hhex, hr⟩ := List.append_inj h rfl
  exact ⟨hex4_inj hm hn hhex, hr⟩

/-- How a character is written. -/
inductive EscapeForm (c : Char) : List Char → Prop
  | plain : c ≠ '\\' → c ≠ '"' → 0x20 ≤ c.toNat ∧ c.toNat ≤ 0x7e → EscapeForm c [c]
  | short {d : Char} : (c, d) ∈ shortEscapes → EscapeForm c ['\\', d]
  | basic : c.toNat < 0x10000 → EscapeForm c (unicodeEscape c.toNat)
  | pair (n : Nat) : c.toNat = 0x10000 + n → n < 0x100000 → EscapeForm c
      (unicodeEscape (0xd800 + n / 0x400) ++ unicodeEscape (0xdc00 + n % 0x400))

theorem toNat_valid (c : Char) : c.toNat < 0xd800 ∨ 0xdfff < c.toNat ∧ c.toNat < 0x110000 :=
  c.valid

theorem escapeForm (c : Char) : EscapeForm c (escapeChar c) := by
  unfold escapeChar
  cases hlookup : shortEscapes.lookup c with
  | some d =>
    obtain ⟨l, r, hl, -⟩ := List.lookup_eq_some_iff.1 hlookup
    exact .short (by simp [hl])
  | none =>
    have hne : ∀ p ∈ shortEscapes, c ≠ p.1 := by
      simpa using List.lookup_eq_none_iff.1 hlookup
    dsimp only
    split
    · rename_i hprintable
      exact .plain (hne ('\\', '\\') (by decide)) (hne ('"', '"') (by decide)) hprintable
    · split
      · rename_i hbasic
        exact .basic hbasic
      · rename_i hpair
        have hvalid := toNat_valid c
        exact .pair (c.toNat - 0x10000) (by omega) (by omega)

/-- A character written in two characters is known by the second, which starts no other escape. -/
theorem shortEscapes_inj : ∀ p ∈ shortEscapes, p.2 ≠ 'u' ∧
    ∀ q ∈ shortEscapes, p.2 = q.2 → p.1 = q.1 := by decide

/-- A lone code unit is no half of a pair. -/
theorem escapeChar_append_inj {c c' : Char} {r r' : List Char}
    (h : escapeChar c ++ r = escapeChar c' ++ r') : c = c' ∧ r = r' := by
  have hc := escapeForm c
  have hc' := escapeForm c'
  generalize escapeChar c = e at hc h
  generalize escapeChar c' = e' at hc' h
  -- a backslash tells a plain character from the rest, and `u` a short escape from a long one
  cases hc with
  | plain hslash _ _ =>
    cases hc' with
    | plain => exact List.cons.inj h
    | short => exact absurd (List.cons.inj h).1 hslash
    | basic => exact absurd (List.cons.inj h).1 hslash
    | pair => exact absurd (List.cons.inj h).1 hslash
  | @short d hd =>
    have hu := (shortEscapes_inj _ hd).1
    cases hc' with
    | plain hslash _ _ => exact absurd (List.cons.inj h).1.symm hslash
    | short hd' =>
      simp only [List.cons_append, List.nil_append, List.cons.injEq, true_and] at h
      exact ⟨(shortEscapes_inj _ hd).2 _ hd' h.1, h.2⟩
    | basic => exact absurd (List.cons.inj (List.cons.inj h).2).1 hu
    | pair => exact absurd (List.cons.inj (List.cons.inj h).2).1 hu
  | basic hb =>
    cases hc' with
    | plain hslash _ _ => exact absurd (List.cons.inj h).1.symm hslash
    | short hd' =>
      exact absurd (List.cons.inj (List.cons.inj h).2).1.symm (shortEscapes_inj _ hd').1
    | basic hb' =>
      obtain ⟨hn, hr⟩ := unicodeEscape_append_inj hb hb' h
      exact ⟨Char.toNat_inj.1 hn, hr⟩
    | pair n hn hlt =>
      rw [List.append_assoc] at h
      have heq := (unicodeEscape_append_inj hb (by omega) h).1
      -- no character has the code of a surrogate
      have hvalid := toNat_valid c
      omega
  | pair n hn hlt =>
    cases hc' with
    | plain hslash _ _ => exact absurd (List.cons.inj h).1.symm hslash
    | short hd' =>
      exact absurd (List.cons.inj (List.cons.inj h).2).1.symm (shortEscapes_inj _ hd').1
    | basic hb' =>
      rw [List.append_assoc] at h
      have heq := (unicodeEscape_append_inj (by omega) hb' h).1
      have hvalid := toNat_valid c'
      omega
    | pair n' hn' hlt' =>
      rw [List.append_assoc, List.append_assoc] at h
      obtain ⟨hhigh, h⟩ := unicodeEscape_append_inj (by omega) (by omega) h
      obtain ⟨hlow, hr⟩ := unicodeEscape_append_inj (by omega) (by omega) h
      exact ⟨Char.toNat_inj.1 (by omega), hr⟩

/-- No character starts as the end of a string does. -/
theorem escapeChar_ne_quote (c : Char) (r r' : List Char) : escapeChar c ++ r ≠ '"' :: r' := by
  have hc := escapeForm c
  generalize escapeChar c = e at hc
  cases hc with
  | plain _ hquote _ => exact fun h => hquote (List.cons.inj h).1
  | short => exact fun h => absurd (List.cons.inj h).1 (by decide)
  | basic => exact fun h => absurd (List.cons.inj h).1 (by decide)
  | pair => exact fun h => absurd (List.cons.inj h).1 (by decide)

theorem writeString_append_inj {s s' r r' : List Char}
    (h : writeString s ++ r = writeString s' ++ r') : s = s' ∧ r = r' := by
  simp only [writeString, List.cons_append, List.append_assoc, List.nil_append, List.cons.injEq,
    true_and] at h
  induction s generalizing s' with
  | nil =>
    cases s' with
    | nil => exact ⟨rfl, (List.cons.inj h).2⟩
    | cons c' s' =>
      rw [List.flatMap_cons, List.append_assoc] at h
      exact absurd h.symm (escapeChar_ne_quote c' _ _)
  | cons c s ih =>
    rw [List.flatMap_cons, List.append_assoc] at h
    cases s' with
    | nil => exact absurd h (escapeChar_ne_quote c _ _)
    | cons c' s' =>
      rw [List.flatMap_cons, List.append_assoc] at h
      obtain ⟨rfl, hrest⟩ := escapeChar_append_inj h
      obtain ⟨rfl, hr⟩ := ih hrest
      exact ⟨rfl, hr⟩

/-! ## Values -/

/-- What comes next does not go on with a word. -/
def EndsWord (r : List Char) : Prop := ∀ c ∈ r.head?, ¬IsWordChar c

theorem endsWord_nil : EndsWord [] := by simp [EndsWord]

theorem endsWord_cons {c : Char} (r : List Char) (h : ¬IsWordChar c) : EndsWord (c :: r) := by
  simpa [EndsWord] using h

theorem word_append_inj {a b r r' : List Char} (ha : ∀ c ∈ a, IsWordChar c)
    (hb : ∀ c ∈ b, IsWordChar c) (hr : EndsWord r) (hr' : EndsWord r') (h : a ++ r = b ++ r') :
    a = b ∧ r = r' := by
  induction a generalizing b with
  | nil =>
    cases b with
    | nil => exact ⟨rfl, h⟩
    | cons c b => exact absurd (hb c List.mem_cons_self) (hr c (by simp [show r = _ from h]))
  | cons c a ih =>
    cases b with
    | nil => exact absurd (ha c List.mem_cons_self) (hr' c (by simp [← show _ = r' from h]))
    | cons c' b =>
      obtain ⟨rfl, hrest⟩ := List.cons.inj h
      obtain ⟨rfl, hr⟩ := ih (fun c hc => ha c (List.mem_cons_of_mem _ hc))
        (fun c hc => hb c (List.mem_cons_of_mem _ hc)) hrest
      exact ⟨rfl, hr⟩

theorem atom_append_ne (a : Atom) {c : Char} (hc : ¬IsWordChar c) (r r' : List Char) :
    a.text ++ r ≠ c :: r' := by
  cases hd : a.text with
  | nil => exact absurd hd a.text_ne_nil
  | cons d ds =>
    intro h
    have hword : IsWordChar d := a.isWordChar (by simp [hd])
    exact hc ((List.cons.inj h).1 ▸ hword)

/-- What a value but an atom starts with. -/
def mark : Json → Option Char
  | .atom _ => none
  | .string _ => some '"'
  | .array _ => some '['
  | .object _ => some '{'

theorem write_of_mark {x : Json} {c : Char} (h : mark x = some c) : ∃ t, write x = c :: t := by
  cases x with
  | atom a => cases h
  | string s =>
    cases h
    exact ⟨_, rfl⟩
  | array xs =>
    cases h
    cases xs <;> exact ⟨_, rfl⟩
  | object ms =>
    cases h
    rcases ms with _ | ⟨⟨k, x⟩, ms⟩ <;> exact ⟨_, rfl⟩

theorem eq_atom_of_mark {x : Json} (h : mark x = none) : ∃ a, x = .atom a := by
  cases x with
  | atom a => exact ⟨a, rfl⟩
  | _ => cases h

/-- A mark is in no word and closes no array. -/
theorem mark_ne {x : Json} {c : Char} (h : mark x = some c) : ¬IsWordChar c ∧ c ≠ ']' := by
  cases x <;> cases h <;> decide

theorem write_ne_bracket (x : Json) (r r' : List Char) : write x ++ r ≠ ']' :: r' := by
  cases hx : mark x with
  | none =>
    obtain ⟨a, rfl⟩ := eq_atom_of_mark hx
    rw [write_atom]
    exact atom_append_ne a (by decide) r r'
  | some c =>
    obtain ⟨t, hw⟩ := write_of_mark hx
    rw [hw]
    exact fun h => (mark_ne hx).2 (List.cons.inj h).1

theorem write_ne_atom {x : Json} {c : Char} (h : mark x = some c) (a : Atom) (r r' : List Char) :
    write x ++ r ≠ a.text ++ r' := by
  obtain ⟨t, hw⟩ := write_of_mark h
  rw [hw]
  exact (atom_append_ne a (mark_ne h).1 r' _).symm

/-- The first character tells what kind of value is written. -/
theorem mark_eq_of_write {x y : Json} {r r' : List Char} (h : write x ++ r = write y ++ r') :
    mark x = mark y := by
  cases hx : mark x with
  | none =>
    cases hy : mark y with
    | none => rfl
    | some d =>
      obtain ⟨a, rfl⟩ := eq_atom_of_mark hx
      rw [write_atom a] at h
      exact absurd h.symm (write_ne_atom hy a _ _)
  | some c =>
    obtain ⟨t, hw⟩ := write_of_mark hx
    cases hy : mark y with
    | none =>
      obtain ⟨b, rfl⟩ := eq_atom_of_mark hy
      rw [write_atom b] at h
      exact absurd h (write_ne_atom hx b _ _)
    | some d =>
      obtain ⟨t', hw'⟩ := write_of_mark hy
      rw [hw, hw'] at h
      exact congrArg some (List.cons.inj h).1

theorem endsWord_writeElements (xs : List Json) (r : List Char) :
    EndsWord (writeElements xs ++ r) := by
  cases xs <;> exact endsWord_cons _ (by decide)

theorem endsWord_writeMembers (ms : List (List Char × Json)) (r : List Char) :
    EndsWord (writeMembers ms ++ r) := by
  rcases ms with _ | ⟨⟨k, x⟩, ms⟩ <;> exact endsWord_cons _ (by decide)

mutual

theorem write_append_inj : ∀ (x y : Json) {r r' : List Char}, EndsWord r → EndsWord r' →
    write x ++ r = write y ++ r' → x = y ∧ r = r'
  | .atom a, y, r, r', hr, hr', h => by
    have hmark := mark_eq_of_write h
    cases y with
    | atom b =>
      rw [write_atom, write_atom] at h
      obtain ⟨hab, hrest⟩ :=
        word_append_inj (fun _ => a.isWordChar) (fun _ => b.isWordChar) hr hr' h
      exact ⟨congrArg Json.atom (Atom.text_injective hab), hrest⟩
    | _ => cases hmark
  | .string s, y, r, r', hr, hr', h => by
    have hmark := mark_eq_of_write h
    cases y with
    | string t =>
      rw [write_string, write_string] at h
      obtain ⟨rfl, hrest⟩ := writeString_append_inj h
      exact ⟨rfl, hrest⟩
    | _ => simp [mark] at hmark
  | .array xs, y, r, r', hr, hr', h => by
    have hmark := mark_eq_of_write h
    cases y with
    | array ys =>
      cases xs with
      | nil =>
        cases ys with
        | nil => exact ⟨rfl, by simpa using h⟩
        | cons y ys =>
          simp only [write_array_nil, write_array_cons, List.cons_append, List.append_assoc,
            List.cons.injEq, true_and] at h
          -- an element never starts with the closing bracket
          exact absurd h.symm (write_ne_bracket y _ _)
      | cons x xs =>
        cases ys with
        | nil =>
          simp only [write_array_nil, write_array_cons, List.cons_append, List.append_assoc,
            List.cons.injEq, true_and] at h
          exact absurd h (write_ne_bracket x _ _)
        | cons y ys =>
          simp only [write_array_cons, List.cons_append, List.append_assoc,
            List.cons.injEq, true_and] at h
          obtain ⟨rfl, hrest⟩ := write_append_inj x y (endsWord_writeElements xs r)
            (endsWord_writeElements ys r') h
          obtain ⟨rfl, hr⟩ := writeElements_append_inj xs ys hrest
          exact ⟨rfl, hr⟩
    | _ => simp [mark] at hmark
  | .object ms, y, r, r', hr, hr', h => by
    have hmark := mark_eq_of_write h
    cases y with
    | object ns =>
      rcases ms with _ | ⟨⟨k, x⟩, ms⟩
      · rcases ns with _ | ⟨⟨k', y⟩, ns⟩
        · exact ⟨rfl, by simpa using h⟩
        · simp [writeString] at h
      · rcases ns with _ | ⟨⟨k', y⟩, ns⟩
        · simp [writeString] at h
        · simp only [write_object_cons, List.cons_append, List.append_assoc, List.cons.injEq,
            true_and] at h
          -- the key ends at its closing quote, and the value is read from there
          obtain ⟨rfl, hvalue⟩ := writeString_append_inj h
          simp only [List.cons.injEq, true_and] at hvalue
          obtain ⟨rfl, hrest⟩ := write_append_inj x y (endsWord_writeMembers ms r)
            (endsWord_writeMembers ns r') hvalue
          obtain ⟨rfl, hr⟩ := writeMembers_append_inj ms ns hrest
          exact ⟨rfl, hr⟩
    | _ => simp [mark] at hmark

theorem writeElements_append_inj : ∀ (xs ys : List Json) {r r' : List Char},
    writeElements xs ++ r = writeElements ys ++ r' → xs = ys ∧ r = r'
  | [], ys, r, r', h => by
    cases ys with
    | nil => exact ⟨rfl, by simpa using h⟩
    | cons y ys => simp at h
  | x :: xs, ys, r, r', h => by
    cases ys with
    | nil => simp at h
    | cons y ys =>
      simp only [writeElements_cons, List.cons_append, List.append_assoc, List.cons.injEq,
        true_and] at h
      obtain ⟨rfl, hrest⟩ := write_append_inj x y (endsWord_writeElements xs r)
        (endsWord_writeElements ys r') h
      obtain ⟨rfl, hr⟩ := writeElements_append_inj xs ys hrest
      exact ⟨rfl, hr⟩

theorem writeMembers_append_inj : ∀ (ms ns : List (List Char × Json)) {r r' : List Char},
    writeMembers ms ++ r = writeMembers ns ++ r' → ms = ns ∧ r = r'
  | [], ns, r, r', h => by
    cases ns with
    | nil => exact ⟨rfl, by simpa using h⟩
    | cons n ns => obtain ⟨k, y⟩ := n; simp at h
  | (k, x) :: ms, ns, r, r', h => by
    cases ns with
    | nil => simp at h
    | cons n ns =>
      obtain ⟨k', y⟩ := n
      simp only [writeMembers_cons, List.cons_append, List.append_assoc, List.cons.injEq,
        true_and] at h
      obtain ⟨rfl, hvalue⟩ := writeString_append_inj h
      simp only [List.cons.injEq, true_and] at hvalue
      obtain ⟨rfl, hrest⟩ := write_append_inj x y (endsWord_writeMembers ms r)
        (endsWord_writeMembers ns r') hvalue
      obtain ⟨rfl, hr⟩ := writeMembers_append_inj ms ns hrest
      exact ⟨rfl, hr⟩

end

theorem write_injective : Function.Injective write := by
  intro x y h
  have happend : write x ++ [] = write y ++ [] := by simpa using h
  exact (write_append_inj x y endsWord_nil endsWord_nil happend).1

/-! ## Printable text -/

/-- The printable characters of ASCII. -/
def Printable (c : Char) : Prop := 0x20 ≤ c.toNat ∧ c.toNat ≤ 0x7e

instance (c : Char) : Decidable (Printable c) := inferInstanceAs (Decidable (_ ∧ _))

theorem IsWordChar.printable {c : Char} (h : IsWordChar c) : Printable c := by
  obtain h | rfl | rfl | rfl := h
  · have hcode : (decide ('A'.val ≤ c.val ∧ c.val ≤ 'Z'.val) ||
        (decide ('a'.val ≤ c.val) && decide (c.val ≤ 'z'.val)) ||
        (decide ('0'.val ≤ c.val) && decide (c.val ≤ '9'.val))) = true := h
    have hn : c.toNat = c.val.toNat := rfl
    simp [UInt32.le_iff_toNat_le] at hcode
    unfold Printable
    omega
  · decide
  · decide
  · decide

theorem hexDigit_printable (n : Nat) : Printable (hexDigit n) := by
  have h := hexDigit_isHex (n % 16) (Nat.mod_lt n (by omega))
  show 0x20 ≤ (Nat.digitChar (n % 16)).toNat ∧ (Nat.digitChar (n % 16)).toNat ≤ 0x7e
  have hn := Nat.mod_lt n (show 16 > 0 by omega)
  split at h <;> omega

theorem unicodeEscape_printable (n : Nat) : ∀ c ∈ unicodeEscape n, Printable c := by
  have hslash : Printable '\\' := by decide
  have hu : Printable 'u' := by decide
  simp [unicodeEscape, hex4, hexDigit_printable, hslash, hu]

theorem shortEscapes_printable : ∀ p ∈ shortEscapes, Printable p.2 :=
  List.all_iff_forall_prop.1 (by decide)

theorem escapeChar_printable (c : Char) : ∀ d ∈ escapeChar c, Printable d := by
  have hc := escapeForm c
  generalize escapeChar c = e at hc
  cases hc with
  | plain _ _ hprintable =>
    intro d hd
    rw [List.mem_singleton.1 hd]
    exact hprintable
  | short hd =>
    have hslash : Printable '\\' := by decide
    simp [hslash, shortEscapes_printable _ hd]
  | basic => exact unicodeEscape_printable _
  | pair =>
    intro d hd
    obtain hd | hd := List.mem_append.1 hd
    · exact unicodeEscape_printable _ d hd
    · exact unicodeEscape_printable _ d hd

theorem writeString_printable (s : List Char) : ∀ c ∈ writeString s, Printable c := by
  have hquote : Printable '"' := by decide
  intro c hc
  simp only [writeString, List.mem_cons, List.mem_append, List.mem_flatMap, List.not_mem_nil,
    or_false] at hc
  obtain rfl | ⟨d, -, hd⟩ | rfl := hc
  · exact hquote
  · exact escapeChar_printable d c hd
  · exact hquote

theorem printable_cons {c : Char} {s : List Char} (hc : Printable c)
    (hs : ∀ d ∈ s, Printable d) : ∀ d ∈ c :: s, Printable d := by
  simpa using ⟨hc, hs⟩

theorem printable_append {s t : List Char} (hs : ∀ c ∈ s, Printable c)
    (ht : ∀ c ∈ t, Printable c) : ∀ c ∈ s ++ t, Printable c := by
  intro c hc
  obtain hc | hc := List.mem_append.1 hc
  · exact hs c hc
  · exact ht c hc

theorem member_printable {k : List Char} {x : Json} {ms : List (List Char × Json)}
    (hx : ∀ c ∈ write x, Printable c) (hms : ∀ c ∈ writeMembers ms, Printable c) :
    ∀ c ∈ writeString k ++ ':' :: ' ' :: (write x ++ writeMembers ms), Printable c :=
  printable_append (writeString_printable k)
    (printable_cons (by decide) (printable_cons (by decide) (printable_append hx hms)))

mutual

theorem write_printable : ∀ (x : Json), ∀ c ∈ write x, Printable c
  | .atom a => by
    rw [write_atom]
    exact fun c hc => (a.isWordChar hc).printable
  | .string s => by
    rw [write_string]
    exact writeString_printable s
  | .array [] => by
    rw [write_array_nil]
    exact List.all_iff_forall_prop.1 (by decide)
  | .array (x :: xs) => by
    rw [write_array_cons]
    exact printable_cons (by decide) (printable_append (write_printable x)
      (writeElements_printable xs))
  | .object [] => by
    rw [write_object_nil]
    exact List.all_iff_forall_prop.1 (by decide)
  | .object ((k, x) :: ms) => by
    rw [write_object_cons]
    exact printable_cons (by decide) (member_printable (write_printable x)
      (writeMembers_printable ms))

theorem writeElements_printable : ∀ (xs : List Json), ∀ c ∈ writeElements xs, Printable c
  | [] => by
    rw [writeElements_nil]
    exact List.all_iff_forall_prop.1 (by decide)
  | x :: xs => by
    rw [writeElements_cons]
    exact printable_cons (by decide) (printable_cons (by decide)
      (printable_append (write_printable x) (writeElements_printable xs)))

theorem writeMembers_printable : ∀ (ms : List (List Char × Json)),
    ∀ c ∈ writeMembers ms, Printable c
  | [] => by
    rw [writeMembers_nil]
    exact List.all_iff_forall_prop.1 (by decide)
  | (k, x) :: ms => by
    rw [writeMembers_cons]
    exact printable_cons (by decide) (printable_cons (by decide)
      (member_printable (write_printable x) (writeMembers_printable ms)))

end

end JsonText

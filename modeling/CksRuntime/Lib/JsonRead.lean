import CksRuntime.Lib.JsonText
import Mathlib.Data.List.Induction

/-!
# Reading JSON text

The reader of the text that a value is written as (`read_write`). A word is one of the keywords, an
integer or a float; in a string the code units are read first, then the surrogate pairs joined. The
reader's fuel bounds the nesting; the length of the text is enough. Loaded, an object is a dict
(`loads`).
-/

set_option autoImplicit false

namespace JsonText

/-! ## Words -/

/-- The number of a decimal text. -/
def intOf : List Char → Int
  | '-' :: digits => -(Nat.ofDigitChars 10 digits 0 : Int)
  | digits => Nat.ofDigitChars 10 digits 0

/-- A text that is one an int is written as. -/
def readInt (w : List Char) : Option Int := if intText (intOf w) = w then some (intOf w) else none

theorem readInt_eq_some {w : List Char} {n : Int} (h : readInt w = some n) : w = intText n := by
  unfold readInt at h
  split at h
  · rename_i hw
    cases h
    exact hw.symm
  · cases h

theorem intOf_intText (n : Int) : intOf (intText n) = n := by
  cases n with
  | ofNat n =>
    rw [intText]
    unfold intOf
    split
    · rename_i digits heq
      exact absurd (by simp [heq]) (dash_notMem_toDigits n)
    · rw [Nat.ofDigitChars_ten_toDigits]
      rfl
  | negSucc n =>
    rw [intText, intOf, Nat.ofDigitChars_ten_toDigits]
    rfl

theorem readInt_intText (n : Int) : readInt (intText n) = some n := by
  rw [readInt, intOf_intText, if_pos rfl]

theorem readInt_eq_none {w : List Char} (h : readInt w = none) (n : Int) : w ≠ intText n := by
  rintro rfl
  rw [readInt_intText] at h
  cases h

theorem notMem_keywords {w : List Char} (hnull : w ≠ "null".toList) (htrue : w ≠ "true".toList)
    (hfalse : w ≠ "false".toList) : w ∉ ["null".toList, "true".toList, "false".toList] := by
  simp only [List.mem_cons, List.not_mem_nil, or_false, not_or]
  exact ⟨hnull, htrue, hfalse⟩

/-- An atom, from the word it is written as. -/
def readWord (w : List Char) : Option Atom :=
  if hnull : w = "null".toList then some .null
  else if htrue : w = "true".toList then some (.bool true)
  else if hfalse : w = "false".toList then some (.bool false)
  else
    match h : readInt w with
    | some n => some (.int n)
    | none =>
      if hw : w ≠ [] ∧ w.all fun c => decide (IsWordChar c) then
        some (.float ⟨w, hw.1, fun c hc => of_decide_eq_true (List.all_eq_true.1 hw.2 c hc),
          notMem_keywords hnull htrue hfalse, readInt_eq_none h⟩)
      else none

theorem readWord_text (a : Atom) : readWord a.text = some a := by
  cases a with
  | null => rfl
  | bool b => cases b <;> rfl
  | int n =>
    have hnull : intText n ≠ "null".toList :=
      intText_ne (c := 'u') (by decide) (by decide) (by decide)
    have htrue : intText n ≠ "true".toList :=
      intText_ne (c := 'e') (by decide) (by decide) (by decide)
    have hfalse : intText n ≠ "false".toList :=
      intText_ne (c := 'e') (by decide) (by decide) (by decide)
    rw [Atom.text, readWord, dif_neg hnull, dif_neg htrue, dif_neg hfalse]
    split
    · rename_i m hm
      rw [readInt_intText, Option.some.injEq] at hm
      rw [hm]
    · rename_i hm
      exact absurd rfl (readInt_eq_none hm n)
  | float f =>
    have hwords := f.not_keyword
    simp only [List.mem_cons, List.not_mem_nil, or_false, not_or] at hwords
    rw [Atom.text, readWord, dif_neg hwords.1, dif_neg hwords.2.1, dif_neg hwords.2.2]
    split
    · rename_i n hn
      exact absurd (readInt_eq_some hn) (f.not_int n)
    · have hall : f.text.all (fun c => decide (IsWordChar c)) = true :=
        List.all_eq_true.2 fun c hc => decide_eq_true (f.word c hc)
      rw [dif_pos ⟨f.nonempty, hall⟩]

/-! ## Strings -/

/-- The value of a hexadecimal digit. -/
def hexValue (c : Char) : Nat := if c.isDigit then c.toNat - 48 else c.toNat - 87

/-- The number of four hexadecimal digits. -/
def hex4Value (a b c d : Char) : Nat :=
  ((hexValue a * 16 + hexValue b) * 16 + hexValue c) * 16 + hexValue d

theorem hexValue_hexDigit (n : Nat) : hexValue (hexDigit n) = n % 16 := by
  have hall : ∀ n < 16, hexValue (Nat.digitChar n) = n := by decide
  exact hall (n % 16) (Nat.mod_lt n (by omega))

theorem hex4Value_hex4 {n : Nat} (h : n < 0x10000) :
    hex4Value (hexDigit (n / 4096)) (hexDigit (n / 256)) (hexDigit (n / 16)) (hexDigit n) = n := by
  simp only [hex4Value, hexValue_hexDigit]
  omega

/-- The code units of a string, after its opening quote, and what comes after its closing one. -/
def readUnits : List Char → Option (List Nat × List Char)
  | [] => none
  | c :: r =>
    if c = '"' then some ([], r)
    else if c = '\\' then
      match r with
      | 'u' :: h₃ :: h₂ :: h₁ :: h₀ :: r =>
        (readUnits r).map fun p => (hex4Value h₃ h₂ h₁ h₀ :: p.1, p.2)
      | d :: r =>
        match shortEscapes.find? fun e => e.2 = d with
        | some e => (readUnits r).map fun p => (e.1.toNat :: p.1, p.2)
        | none => none
      | [] => none
    else (readUnits r).map fun p => (c.toNat :: p.1, p.2)

/-- A high surrogate and a low one are one character. -/
def joinUnits : List Nat → List Char
  | [] => []
  | [n] => [Char.ofNat n]
  | h :: l :: units =>
    if 0xd800 ≤ h ∧ h < 0xdc00 ∧ 0xdc00 ≤ l ∧ l < 0xe000 then
      Char.ofNat (0x10000 + (h - 0xd800) * 0x400 + (l - 0xdc00)) :: joinUnits units
    else Char.ofNat h :: joinUnits (l :: units)

/-- What follows the opening quote, up to the closing one. -/
def readString (t : List Char) : Option (List Char × List Char) :=
  (readUnits t).map fun p => (joinUnits p.1, p.2)

/-- The code units a character is written as. -/
def unitsOf (c : Char) : List Nat :=
  if c.toNat < 0x10000 then [c.toNat]
  else [0xd800 + (c.toNat - 0x10000) / 0x400, 0xdc00 + (c.toNat - 0x10000) % 0x400]

theorem unitsOf_basic {c : Char} (h : c.toNat < 0x10000) : unitsOf c = [c.toNat] := if_pos h

theorem readUnits_unicodeEscape {n : Nat} (h : n < 0x10000) (r : List Char) :
    readUnits (unicodeEscape n ++ r) = (readUnits r).map fun p => (n :: p.1, p.2) := by
  simp only [unicodeEscape, hex4, List.cons_append, List.nil_append]
  rw [readUnits, if_neg (by decide), if_pos rfl, hex4Value_hex4 h]

theorem shortEscapes_find : ∀ e ∈ shortEscapes, e.1.toNat < 0x10000 ∧ e.2 ≠ 'u' ∧
    (shortEscapes.find? fun e' => e'.2 = e.2) = some e := by decide

theorem readUnits_short {e : Char × Char} (he : e ∈ shortEscapes) (r : List Char) :
    readUnits ('\\' :: e.2 :: r) = (readUnits r).map fun p => (e.1.toNat :: p.1, p.2) := by
  obtain ⟨-, hu, hfind⟩ := shortEscapes_find e he
  rw [readUnits, if_neg (by decide), if_pos rfl, hfind]
  exact fun _ _ _ _ _ h => absurd h hu

theorem readUnits_quote (r : List Char) : readUnits ('"' :: r) = some ([], r) := by
  rw [readUnits.eq_def]
  rfl

theorem readUnits_plain {c : Char} (hslash : c ≠ '\\') (hquote : c ≠ '"') (r : List Char) :
    readUnits (c :: r) = (readUnits r).map fun p => (c.toNat :: p.1, p.2) := by
  rw [readUnits.eq_def]
  dsimp only
  rw [if_neg hquote, if_neg hslash]

theorem readUnits_escapeChar (c : Char) (r : List Char) : readUnits (escapeChar c ++ r) =
    (readUnits r).map fun p => (unitsOf c ++ p.1, p.2) := by
  have hc := escapeForm c
  generalize escapeChar c = e at hc
  cases hc with
  | plain hslash hquote hprintable =>
    rw [unitsOf_basic (by omega)]
    exact readUnits_plain hslash hquote r
  | @short d hd =>
    rw [unitsOf_basic (shortEscapes_find _ hd).1]
    exact readUnits_short hd r
  | basic hb =>
    rw [unitsOf_basic hb]
    exact readUnits_unicodeEscape hb r
  | pair n hn hlt =>
    have hunits : unitsOf c = [0xd800 + n / 0x400, 0xdc00 + n % 0x400] := by
      rw [unitsOf, if_neg (by omega), hn, Nat.add_sub_cancel_left]
    rw [hunits, List.append_assoc, readUnits_unicodeEscape (by omega),
      readUnits_unicodeEscape (by omega), Option.map_map]
    rfl

theorem readUnits_string (s r : List Char) : readUnits (s.flatMap escapeChar ++ '"' :: r) =
    some (s.flatMap unitsOf, r) := by
  induction s with
  | nil => rw [List.flatMap_nil, List.flatMap_nil, List.nil_append, readUnits_quote]
  | cons c s ih =>
    rw [List.flatMap_cons, List.append_assoc, readUnits_escapeChar, ih]
    rfl

theorem joinUnits_unitsOf (c : Char) (units : List Nat) :
    joinUnits (unitsOf c ++ units) = c :: joinUnits units := by
  have hvalid := toNat_valid c
  by_cases hb : c.toNat < 0x10000
  · rw [unitsOf_basic hb, List.singleton_append]
    cases units with
    | nil => rw [joinUnits, joinUnits, Char.ofNat_toNat]
    | cons l units =>
      rw [joinUnits, if_neg (by omega), Char.ofNat_toNat]
  · have hcode : 0x10000 + (0xd800 + (c.toNat - 0x10000) / 0x400 - 0xd800) * 0x400 +
        (0xdc00 + (c.toNat - 0x10000) % 0x400 - 0xdc00) = c.toNat := by omega
    rw [unitsOf, if_neg hb, List.cons_append, List.singleton_append, joinUnits,
      if_pos (by omega), hcode, Char.ofNat_toNat]

theorem joinUnits_string (s : List Char) : joinUnits (s.flatMap unitsOf) = s := by
  induction s with
  | nil => rfl
  | cons c s ih => rw [List.flatMap_cons, joinUnits_unitsOf, ih]

/-- The text of a string after its opening quote. -/
theorem readString_write (s r : List Char) :
    readString (s.flatMap escapeChar ++ '"' :: r) = some (s, r) := by
  rw [readString, readUnits_string, Option.map_some, joinUnits_string]

/-! ## Values -/

mutual

/-- A value, and the rest of the text; the fuel bounds how far it reads. -/
def readValue : Nat → List Char → Option (Json × List Char)
  | 0, _ => none
  | _ + 1, [] => none
  | fuel + 1, c :: r =>
    if c = '"' then (readString r).map fun p => (.string p.1, p.2)
    else if c = '[' then
      if r.head? = some ']' then some (.array [], r.tail)
      else do
        let (x, r) ← readValue fuel r
        let (xs, r) ← readElements fuel r
        some (.array (x :: xs), r)
    else if c = '\x7b' then
      if r.head? = some '\x7d' then some (.object [], r.tail)
      else do
        let (m, r) ← readMember fuel r
        let (ms, r) ← readMembers fuel r
        some (.object (m :: ms), r)
    else
      (readWord ((c :: r).takeWhile fun d => decide (IsWordChar d))).map fun a =>
        (.atom a, (c :: r).dropWhile fun d => decide (IsWordChar d))

/-- The elements after the first one. -/
def readElements : Nat → List Char → Option (List Json × List Char)
  | 0, _ => none
  | fuel + 1, ',' :: ' ' :: r => do
    let (x, r) ← readValue fuel r
    let (xs, r) ← readElements fuel r
    some (x :: xs, r)
  | _ + 1, ']' :: r => some ([], r)
  | _ + 1, _ => none

/-- A key, the separator and a value. -/
def readMember : Nat → List Char → Option ((List Char × Json) × List Char)
  | 0, _ => none
  | fuel + 1, '"' :: r => do
    let (k, r) ← readString r
    match r with
    | ':' :: ' ' :: r =>
      let (x, r) ← readValue fuel r
      some ((k, x), r)
    | _ => none
  | _ + 1, _ => none

/-- The members after the first one. -/
def readMembers : Nat → List Char → Option (List (List Char × Json) × List Char)
  | 0, _ => none
  | fuel + 1, ',' :: ' ' :: r => do
    let (m, r) ← readMember fuel r
    let (ms, r) ← readMembers fuel r
    some (m :: ms, r)
  | _ + 1, '\x7d' :: r => some ([], r)
  | _ + 1, _ => none

end

/-- The value of a whole text. -/
def read (t : List Char) : Option Json :=
  match readValue (t.length + 1) t with
  | some (x, []) => some x
  | _ => none

section
variable {fuel : Nat} {r r' r'' : List Char} {k : List Char} {x : Json} {xs : List Json}
  {ms : List (List Char × Json)}

theorem readValue_array (hr : ∀ t, r ≠ ']' :: t) (hx : readValue fuel r = some (x, r'))
    (hxs : readElements fuel r' = some (xs, r'')) :
    readValue (fuel + 1) ('[' :: r) = some (.array (x :: xs), r'') := by
  have hhead : r.head? ≠ some ']' := fun h => by
    obtain ⟨t, ht⟩ := List.head?_eq_some_iff.1 h
    exact hr t ht
  rw [readValue, if_neg (by decide), if_pos rfl, if_neg hhead, hx]
  dsimp only [bind, Option.bind]
  rw [hxs]

theorem readMember_write (hx : readValue fuel r = some (x, r')) :
    readMember (fuel + 1) (writeString k ++ ':' :: ' ' :: r) = some ((k, x), r') := by
  rw [writeString, List.cons_append, List.append_assoc, readMember]
  dsimp only [bind, Option.bind, List.singleton_append]
  rw [readString_write]
  simp [hx]

theorem readValue_object (hm : readMember fuel r = some ((k, x), r'))
    (hms : readMembers fuel r' = some (ms, r'')) :
    readValue (fuel + 1) ('\x7b' :: r) = some (.object ((k, x) :: ms), r'') := by
  have hhead : r.head? ≠ some '\x7d' := fun h => by
    obtain ⟨t, rfl⟩ := List.head?_eq_some_iff.1 h
    cases fuel with
    | zero => cases hm
    | succ fuel => cases hm
  rw [readValue, if_neg (by decide), if_neg (by decide), if_pos rfl, if_neg hhead, hm]
  dsimp only [bind, Option.bind]
  rw [hms]

end

theorem readValue_atom (a : Atom) {fuel : Nat} {r : List Char} (hr : EndsWord r) :
    readValue (fuel + 1) (a.text ++ r) = some (.atom a, r) := by
  have hword : ∀ d ∈ a.text, decide (IsWordChar d) = true := fun d hd =>
    decide_eq_true (a.isWordChar hd)
  have hrest : r.takeWhile (fun d => decide (IsWordChar d)) = [] ∧
      r.dropWhile (fun d => decide (IsWordChar d)) = r := by
    cases r with
    | nil => exact ⟨rfl, rfl⟩
    | cons d r =>
      have hd : ¬IsWordChar d := hr d rfl
      simp [hd]
  have htake : (a.text ++ r).takeWhile (fun d => decide (IsWordChar d)) = a.text := by
    rw [List.takeWhile_append_of_pos hword, hrest.1, List.append_nil]
  have hdrop : (a.text ++ r).dropWhile (fun d => decide (IsWordChar d)) = r := by
    rw [List.dropWhile_append_of_pos hword, hrest.2]
  cases htext : a.text with
  | nil => exact absurd htext a.text_ne_nil
  | cons c t =>
    have hc : IsWordChar c := a.isWordChar (by simp [htext])
    rw [htext, List.cons_append] at htake hdrop
    have hquote : c ≠ '"' := fun h => absurd (h ▸ hc) (by decide)
    have hbracket : c ≠ '[' := fun h => absurd (h ▸ hc) (by decide)
    have hbrace : c ≠ '\x7b' := fun h => absurd (h ▸ hc) (by decide)
    rw [List.cons_append, readValue, if_neg hquote, if_neg hbracket, if_neg hbrace, htake, hdrop,
      ← htext, readWord_text]
    rfl

mutual

/-- What is written is read back, whatever comes after. -/
theorem readValue_write : ∀ (x : Json) (fuel : Nat) (r : List Char), EndsWord r →
    (write x).length ≤ fuel → readValue fuel (write x ++ r) = some (x, r)
  | .atom a, fuel, r, hr, hfuel => by
    rw [write_atom] at hfuel ⊢
    have hpos := List.length_pos_iff.2 a.text_ne_nil
    obtain ⟨n, rfl⟩ : ∃ n, fuel = n + 1 := ⟨fuel - 1, by omega⟩
    exact readValue_atom a hr
  | .string s, fuel, r, hr, hfuel => by
    rw [write_string, writeString, List.length_cons] at hfuel
    obtain ⟨n, rfl⟩ : ∃ n, fuel = n + 1 := ⟨fuel - 1, by omega⟩
    rw [write_string, writeString, List.cons_append, List.append_assoc, List.singleton_append,
      readValue, if_pos rfl, readString_write]
    rfl
  | .array [], fuel, r, hr, hfuel => by
    rw [write_array_nil, List.length_cons] at hfuel
    obtain ⟨n, rfl⟩ : ∃ n, fuel = n + 1 := ⟨fuel - 1, by omega⟩
    rfl
  | .array (x :: xs), fuel, r, hr, hfuel => by
    rw [write_array_cons, List.length_cons, List.length_append] at hfuel
    obtain ⟨n, rfl⟩ : ∃ n, fuel = n + 1 := ⟨fuel - 1, by omega⟩
    rw [write_array_cons, List.cons_append, List.append_assoc]
    exact readValue_array (fun t => write_ne_bracket x _ t)
      (readValue_write x n _ (endsWord_writeElements xs r) (by omega))
      (readElements_write xs n r (by omega))
  | .object [], fuel, r, hr, hfuel => by
    rw [write_object_nil, List.length_cons] at hfuel
    obtain ⟨n, rfl⟩ : ∃ n, fuel = n + 1 := ⟨fuel - 1, by omega⟩
    rfl
  | .object ((k, x) :: ms), fuel, r, hr, hfuel => by
    rw [write_object_cons] at hfuel
    simp only [List.length_cons, List.length_append, writeString] at hfuel
    obtain ⟨n, rfl⟩ : ∃ n, fuel = n + 2 := ⟨fuel - 2, by omega⟩
    have hassoc : write (.object ((k, x) :: ms)) ++ r =
        '\x7b' :: (writeString k ++ ':' :: ' ' :: (write x ++ (writeMembers ms ++ r))) := by
      simp
    rw [hassoc]
    exact readValue_object
      (readMember_write (readValue_write x n _ (endsWord_writeMembers ms r) (by omega)))
      (readMembers_write ms (n + 1) r (by omega))

theorem readElements_write : ∀ (xs : List Json) (fuel : Nat) (r : List Char),
    (writeElements xs).length ≤ fuel → readElements fuel (writeElements xs ++ r) = some (xs, r)
  | [], fuel, r, hfuel => by
    rw [writeElements_nil, List.length_cons] at hfuel
    obtain ⟨n, rfl⟩ : ∃ n, fuel = n + 1 := ⟨fuel - 1, by omega⟩
    rfl
  | x :: xs, fuel, r, hfuel => by
    simp only [writeElements_cons, List.length_cons, List.length_append] at hfuel
    obtain ⟨n, rfl⟩ : ∃ n, fuel = n + 1 := ⟨fuel - 1, by omega⟩
    have hx := readValue_write x n _ (endsWord_writeElements xs r) (by omega)
    have hxs := readElements_write xs n r (by omega)
    rw [writeElements_cons, List.cons_append, List.cons_append, List.append_assoc, readElements, hx]
    dsimp only [bind, Option.bind]
    rw [hxs]

theorem readMembers_write : ∀ (ms : List (List Char × Json)) (fuel : Nat) (r : List Char),
    (writeMembers ms).length ≤ fuel → readMembers fuel (writeMembers ms ++ r) = some (ms, r)
  | [], fuel, r, hfuel => by
    rw [writeMembers_nil, List.length_cons] at hfuel
    obtain ⟨n, rfl⟩ : ∃ n, fuel = n + 1 := ⟨fuel - 1, by omega⟩
    rfl
  | (k, x) :: ms, fuel, r, hfuel => by
    simp only [writeMembers_cons, List.length_cons, List.length_append, writeString] at hfuel
    obtain ⟨n, rfl⟩ : ∃ n, fuel = n + 2 := ⟨fuel - 2, by omega⟩
    have hx := readValue_write x n _ (endsWord_writeMembers ms r) (by omega)
    have hms := readMembers_write ms (n + 1) r (by omega)
    have hassoc : writeMembers ((k, x) :: ms) ++ r =
        ',' :: ' ' :: (writeString k ++ ':' :: ' ' :: (write x ++ (writeMembers ms ++ r))) := by
      simp
    rw [hassoc, readMembers, readMember_write hx]
    dsimp only [bind, Option.bind]
    rw [hms]

end

theorem read_write (x : Json) : read (write x) = some x := by
  have h := readValue_write x ((write x).length + 1) [] endsWord_nil (by omega)
  rw [List.append_nil] at h
  rw [read, h]

/-! ## Dicts -/

/-- A key that is there gets the new value in its place. -/
def setItem (d : List (List Char × Json)) (m : List Char × Json) : List (List Char × Json) :=
  if (d.map Prod.fst).contains m.1 then d.map fun m' => if m'.1 = m.1 then m else m' else d ++ [m]

/-- A dict from the members in order: a key that comes again takes the later value. -/
def dictOf (ms : List (List Char × Json)) : List (List Char × Json) := ms.foldl setItem []

mutual

/-- Of the members with one key the last one counts. -/
def collapse : Json → Json
  | .atom a => .atom a
  | .string s => .string s
  | .array xs => .array (collapseElements xs)
  | .object ms => .object (dictOf (collapseMembers ms))

/-- The elements, each. -/
def collapseElements : List Json → List Json
  | [] => []
  | x :: xs => collapse x :: collapseElements xs

/-- The values of the members, each. -/
def collapseMembers : List (List Char × Json) → List (List Char × Json)
  | [] => []
  | (k, x) :: ms => (k, collapse x) :: collapseMembers ms

end

/-- The value of a text as it is loaded, its objects as dicts. -/
def loads (t : List Char) : Option Json := (read t).map collapse

theorem loads_write (x : Json) : loads (write x) = some (collapse x) := by
  rw [loads, read_write]
  rfl

/-- Keys that are all different stay as they are. -/
theorem dictOf_nodup {ms : List (List Char × Json)} (h : (ms.map Prod.fst).Nodup) :
    dictOf ms = ms := by
  induction ms using List.reverseRecOn with
  | nil => rfl
  | append_singleton ms m ih =>
    rw [List.map_append, List.map_singleton, List.nodup_append] at h
    obtain ⟨hms, -, hdisjoint⟩ := h
    have hnew : m.1 ∉ ms.map Prod.fst := fun hmem =>
      hdisjoint m.1 hmem m.1 (List.mem_singleton_self m.1) rfl
    rw [dictOf, List.foldl_append, List.foldl_cons, List.foldl_nil]
    rw [dictOf] at ih
    rw [ih hms, setItem, if_neg (by simpa using hnew)]

theorem collapse_object {ms : List (List Char × Json)} (hnodup : (ms.map Prod.fst).Nodup)
    (hmembers : collapseMembers ms = ms) : collapse (.object ms) = .object ms := by
  rw [collapse, hmembers, dictOf_nodup hnodup]

theorem collapseElements_strings (texts : List (List Char)) :
    collapseElements (texts.map .string) = texts.map .string := by
  induction texts with
  | nil => rfl
  | cons t texts ih => rw [List.map_cons, collapseElements, ih, collapse]

end JsonText

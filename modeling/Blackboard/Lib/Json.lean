import Mathlib
import Blackboard.Lib.Text

/-!
# JSON texts

Parsed JSON values with the accessors a request handler uses on them, and the compact
text a serializer writes for an object whose members are scalars: members in key
order, no blanks, quotation mark and backslash escaped, control characters in their
short form or as a four digit escape.

Such a text determines the object (`renderObject_inj`). The proof reads the text from
the left: an escaped character, a quoted string, a number and a member each end where
they end, whatever follows.
-/

namespace Json

open Text (hexDigit)

/-- A JSON number as a parser keeps it: an integer, or anything written with a point or an
exponent. -/
inductive Number where
  | int (n : Int)
  | float (text : String)
  deriving DecidableEq, Repr

/-- A parsed JSON value. The members of an object have distinct keys. -/
inductive Value where
  | null
  | bool (b : Bool)
  | number (n : Number)
  | string (s : String)
  | array (items : List Value)
  | object (members : List (String × Value))

/-- The members of a parsed object. -/
abbrev Object := List (String × Value)

namespace Value

def asStr : Value → Option String
  | string s => some s
  | _ => none

def asObject : Value → Option Object
  | object members => some members
  | _ => none

/-- The member of an object. -/
def get (key : String) : Value → Option Value
  | object members => members.lookup key
  | _ => none

/-- An integer that fits 64 bits with a sign. -/
def asI64 : Value → Option Int
  | number (.int n) => if -(2 ^ 63) ≤ n ∧ n < 2 ^ 63 then some n else none
  | _ => none

/-- An integer that fits 64 bits without a sign. -/
def asU64 : Value → Option Nat
  | number (.int n) => if 0 ≤ n ∧ n < 2 ^ 64 then some n.toNat else none
  | _ => none

end Value

namespace Object

def get (o : Object) (key : String) : Option Value := o.lookup key

def containsKey (o : Object) (key : String) : Bool := (get o key).isSome

/-- Every key is an allowed one. -/
def onlyKeys (o : Object) (allowed : List String) : Bool :=
  o.all fun member => allowed.contains member.1

end Object

/-! ## Rendering -/

/-- A member value of a rendered object. -/
inductive Scalar where
  | null
  | string (s : String)
  | int (n : Int)
  deriving DecidableEq, Repr

namespace Scalar

def ofOptionString : Option String → Scalar
  | none => null
  | some s => string s

def ofOptionInt : Option Int → Scalar
  | none => null
  | some n => int n

theorem ofOptionString_inj {a b : Option String} (h : ofOptionString a = ofOptionString b) :
    a = b := by
  cases a <;> cases b <;> simp_all [ofOptionString]

theorem ofOptionInt_inj {a b : Option Int} (h : ofOptionInt a = ofOptionInt b) : a = b := by
  cases a <;> cases b <;> simp_all [ofOptionInt]

end Scalar

def quotationMark : Char := Char.ofNat 34
def backslash : Char := Char.ofNat 92

def escapeChar (c : Char) : List Char :=
  if c = quotationMark then [backslash, quotationMark]
  else if c = backslash then [backslash, backslash]
  else if c.toNat < 32 then
    match c.toNat with
    | 8 => [backslash, 'b']
    | 9 => [backslash, 't']
    | 10 => [backslash, 'n']
    | 12 => [backslash, 'f']
    | 13 => [backslash, 'r']
    | n => [backslash, 'u', '0', '0', hexDigit (n / 16), hexDigit (n % 16)]
  else [c]

def quote (s : String) : List Char :=
  quotationMark :: (s.toList.flatMap escapeChar ++ [quotationMark])

def renderScalar : Scalar → List Char
  | .null => ['n', 'u', 'l', 'l']
  | .string s => quote s
  | .int n => (toString n).toList

def renderMember (m : String × Scalar) : List Char := quote m.1 ++ ':' :: renderScalar m.2

/-- The members after the first and the closing brace. -/
def renderTail : List (String × Scalar) → List Char
  | [] => ['}']
  | m :: ms => ',' :: (renderMember m ++ renderTail ms)

/-- The compact text of an object whose members are given in key order. -/
def renderObject : List (String × Scalar) → String
  | [] => String.ofList ['{', '}']
  | m :: ms => String.ofList ('{' :: (renderMember m ++ renderTail ms))

/-! ## Reading a rendered text back -/

/-- The value of a hexadecimal digit. -/
def hexValue (c : Char) : Nat := if c.toNat < 58 then c.toNat - 48 else c.toNat - 87

/-- The character that follows a backslash in a short escape. -/
def unescape (c : Char) : Char :=
  if c = 'b' then Char.ofNat 8
  else if c = 't' then Char.ofNat 9
  else if c = 'n' then Char.ofNat 10
  else if c = 'f' then Char.ofNat 12
  else if c = 'r' then Char.ofNat 13
  else c

/-- The first character of the body of a quoted string, and what follows it. -/
def unescapeHead : List Char → Option (Char × List Char)
  | [] => none
  | c :: rest =>
      if c = quotationMark then none
      else if c = backslash then
        match rest with
        | 'u' :: _ :: _ :: h :: l :: rest =>
            some (Char.ofNat (16 * hexValue h + hexValue l), rest)
        | e :: rest => some (unescape e, rest)
        | [] => none
      else some (c, rest)

@[simp] theorem unescapeHead_quotationMark (x : List Char) :
    unescapeHead (quotationMark :: x) = none := rfl

theorem unescapeHead_escapeChar (c : Char) (x : List Char) :
    unescapeHead (escapeChar c ++ x) = some (c, x) := by
  unfold escapeChar
  split
  · rename_i h; subst h; rfl
  · split
    · rename_i h; subst h; rfl
    · rename_i hq hb
      split
      · -- thirty two control characters, each with its own escape
        rename_i hlt
        obtain ⟨n, hn, rfl⟩ : ∃ n, n < 32 ∧ c = Char.ofNat n :=
          ⟨c.toNat, hlt, (Char.ofNat_toNat c).symm⟩
        clear hlt hq hb
        interval_cases n <;> rfl
      · simp [unescapeHead, hq, hb]

/-- A quoted body ends at its closing quotation mark. -/
theorem escaped_inj {cs ds x y : List Char}
    (h : cs.flatMap escapeChar ++ quotationMark :: x = ds.flatMap escapeChar ++ quotationMark :: y) :
    cs = ds ∧ x = y := by
  induction cs generalizing ds with
  | nil =>
      cases ds with
      | nil => exact ⟨rfl, by simpa using h⟩
      | cons d ds =>
          have := congrArg unescapeHead h
          simp [List.flatMap_cons, List.append_assoc, unescapeHead_escapeChar] at this
  | cons c cs ih =>
      cases ds with
      | nil =>
          have := congrArg unescapeHead h
          simp [List.flatMap_cons, List.append_assoc, unescapeHead_escapeChar] at this
      | cons d ds =>
          have hhead := congrArg unescapeHead h
          rw [List.flatMap_cons, List.flatMap_cons, List.append_assoc, List.append_assoc,
            unescapeHead_escapeChar, unescapeHead_escapeChar, Option.some.injEq,
            Prod.mk.injEq] at hhead
          obtain ⟨rfl, htail⟩ := hhead
          obtain ⟨rfl, hxy⟩ := ih htail
          exact ⟨rfl, hxy⟩

theorem quote_append_inj {s t : String} {x y : List Char} (h : quote s ++ x = quote t ++ y) :
    s = t ∧ x = y := by
  simp only [quote, List.cons_append, List.cons.injEq, true_and, List.append_assoc] at h
  obtain ⟨hs, hxy⟩ := escaped_inj h
  exact ⟨String.toList_inj.mp hs, hxy⟩

/-! ## Numbers -/

/-- A character of a rendered integer. -/
def isNumeric (c : Char) : Bool := c.isDigit || c == '-'

theorem isNumeric_of_mem_natRepr {n : Nat} {c : Char} (h : c ∈ (toString n).toList) :
    c.isDigit = true := by
  have h' : c ∈ n.repr.toList := h
  rw [Nat.toList_repr] at h'
  exact Nat.isDigit_of_mem_toDigits (by decide) (by decide) h'

theorem isNumeric_of_mem {n : Int} {c : Char} (h : c ∈ (toString n).toList) :
    isNumeric c = true := by
  cases n with
  | ofNat m =>
      have hc : c.isDigit = true := isNumeric_of_mem_natRepr (n := m) h
      simp [isNumeric, hc]
  | negSucc m =>
      have hc : c ∈ ("-" ++ toString (m + 1)).toList := h
      rw [String.toList_append, List.mem_append] at hc
      rcases hc with hc | hc
      · have : c = '-' := by simpa using hc
        simp [isNumeric, this]
      · simp [isNumeric, isNumeric_of_mem_natRepr hc]

/-- Two words over one alphabet followed by something outside it are split at the same place. -/
theorem append_inj_of_all {p : Char → Bool} {a b x y : List Char} (ha : ∀ c ∈ a, p c = true)
    (hb : ∀ c ∈ b, p c = true) (hx : ∀ c ∈ x.head?, p c = false) (hy : ∀ c ∈ y.head?, p c = false)
    (h : a ++ x = b ++ y) : a = b ∧ x = y := by
  induction a generalizing b with
  | nil =>
      cases b with
      | nil => exact ⟨rfl, h⟩
      | cons d b =>
          have hd : p d = true := hb d List.mem_cons_self
          have hxd : x = d :: (b ++ y) := h
          have := hx d (by simp [hxd])
          rw [hd] at this
          exact absurd this (by simp)
  | cons c a ih =>
      have hc : p c = true := ha c List.mem_cons_self
      cases b with
      | nil =>
          have hyc : c :: (a ++ x) = y := h
          have := hy c (by simp [← hyc])
          rw [hc] at this
          exact absurd this (by simp)
      | cons d b =>
          have h' : c :: (a ++ x) = d :: (b ++ y) := h
          obtain ⟨rfl, htail⟩ := List.cons.inj h'
          obtain ⟨rfl, hxy⟩ := ih (fun c hc => ha c (List.mem_cons_of_mem _ hc))
            (fun c hc => hb c (List.mem_cons_of_mem _ hc)) htail
          exact ⟨rfl, hxy⟩

/-! ## Objects -/

/-- The rest of a rendered object starts with a comma or the closing brace. -/
theorem renderTail_head (ms : List (String × Scalar)) :
    ∃ c rest, renderTail ms = c :: rest ∧ (c = ',' ∨ c = '}') := by
  cases ms with
  | nil => exact ⟨'}', [], rfl, Or.inr rfl⟩
  | cons m ms => exact ⟨',', _, rfl, Or.inl rfl⟩

theorem renderTail_head_not_numeric (ms : List (String × Scalar)) :
    ∀ c ∈ (renderTail ms).head?, isNumeric c = false := by
  obtain ⟨d, rest, hr, hd⟩ := renderTail_head ms
  intro c hc
  rw [hr] at hc
  have : c = d := by simpa using hc.symm
  rcases hd with rfl | rfl <;> subst this <;> decide

/-- The first character of a rendered scalar tells which kind it is. -/
theorem renderInt_ne_nil (n : Int) : (toString n).toList ≠ [] := by
  cases n with
  | ofNat m =>
      show (toString m).toList ≠ []
      have : m.repr.toList ≠ [] := by
        rw [Nat.toList_repr]
        exact Nat.toDigits_ne_nil
      exact this
  | negSucc m =>
      show ("-" ++ toString (m + 1)).toList ≠ []
      simp [String.toList_append]

theorem renderInt_append_ne_cons {n : Int} {x y : List Char} {c : Char}
    (hc : isNumeric c = false) : (toString n).toList ++ x ≠ c :: y := by
  intro h
  cases hn : (toString n).toList with
  | nil => exact renderInt_ne_nil n hn
  | cons d ds =>
      rw [hn] at h
      have hd : d = c := (List.cons.inj h).1
      have : isNumeric d = true := isNumeric_of_mem (n := n) (by rw [hn]; exact List.mem_cons_self)
      rw [hd, hc] at this
      exact absurd this (by simp)

theorem renderScalar_append_inj {a b : Scalar} {ms ns : List (String × Scalar)}
    (h : renderScalar a ++ renderTail ms = renderScalar b ++ renderTail ns) :
    a = b ∧ renderTail ms = renderTail ns := by
  have hn : isNumeric 'n' = false := by decide
  have hq : isNumeric quotationMark = false := by decide
  cases a with
  | null =>
      cases b with
      | null => exact ⟨rfl, by simpa [renderScalar] using h⟩
      | string t =>
          have := (List.cons.inj (show 'n' :: _ = quotationMark :: _ from h)).1
          exact absurd this (by decide)
      | int m => exact absurd h.symm (renderInt_append_ne_cons hn)
  | string s =>
      cases b with
      | null =>
          have := (List.cons.inj (show quotationMark :: _ = 'n' :: _ from h)).1
          exact absurd this (by decide)
      | string t =>
          obtain ⟨rfl, htail⟩ := quote_append_inj h
          exact ⟨rfl, htail⟩
      | int m => exact absurd h.symm (renderInt_append_ne_cons hq)
  | int n =>
      cases b with
      | null => exact absurd h (renderInt_append_ne_cons hn)
      | string t => exact absurd h (renderInt_append_ne_cons hq)
      | int m =>
          obtain ⟨hnm, htail⟩ := append_inj_of_all (fun _ => isNumeric_of_mem)
            (fun _ => isNumeric_of_mem) (renderTail_head_not_numeric ms)
            (renderTail_head_not_numeric ns) h
          have hrepr : n.repr = m.repr := String.toList_inj.mp hnm
          rw [Int.repr_injective hrepr]
          exact ⟨rfl, htail⟩

theorem renderMember_append_inj {a b : String × Scalar} {ms ns : List (String × Scalar)}
    (h : renderMember a ++ renderTail ms = renderMember b ++ renderTail ns) :
    a = b ∧ renderTail ms = renderTail ns := by
  obtain ⟨k, v⟩ := a
  obtain ⟨l, w⟩ := b
  simp only [renderMember, List.append_assoc, List.cons_append] at h
  obtain ⟨rfl, hrest⟩ := quote_append_inj h
  obtain ⟨rfl, htail⟩ := renderScalar_append_inj (List.cons.inj hrest).2
  exact ⟨rfl, htail⟩

theorem renderTail_inj {ms ns : List (String × Scalar)} (h : renderTail ms = renderTail ns) :
    ms = ns := by
  induction ms generalizing ns with
  | nil =>
      cases ns with
      | nil => rfl
      | cons n ns => exact absurd (List.cons.inj h).1 (by decide)
  | cons m ms ih =>
      cases ns with
      | nil => exact absurd (List.cons.inj h).1 (by decide)
      | cons n ns =>
          obtain ⟨rfl, htail⟩ := renderMember_append_inj (List.cons.inj h).2
          rw [ih htail]

/-- **A rendered object is read back as it was.** -/
theorem renderObject_inj {ms ns : List (String × Scalar)} (h : renderObject ms = renderObject ns) :
    ms = ns := by
  have hne : ∀ (m : String × Scalar) (ms : List (String × Scalar)),
      renderMember m ++ renderTail ms ≠ ['}'] := by
    intro m ms heq
    exact absurd (List.cons.inj (show quotationMark :: _ = '}' :: _ from heq)).1 (by decide)
  cases ms with
  | nil =>
      cases ns with
      | nil => rfl
      | cons n ns => exact absurd (List.cons.inj (String.ofList_inj.mp h)).2.symm (hne n ns)
  | cons m ms =>
      cases ns with
      | nil => exact absurd (List.cons.inj (String.ofList_inj.mp h)).2 (hne m ms)
      | cons n ns =>
          obtain ⟨rfl, htail⟩ :=
            renderMember_append_inj (List.cons.inj (String.ofList_inj.mp h)).2
          rw [renderTail_inj htail]

end Json

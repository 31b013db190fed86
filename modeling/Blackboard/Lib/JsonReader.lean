import Blackboard.Lib.Crypto

/-!
# Reading a rendered object

A parser of the texts `renderObject` writes: one object, its members scalars, no blanks.
It reads from the left as the proof that a text determines its object does, and gives the
members back (`readObject_renderObject`).

`ReadsBack` is what a program that renders an object and parses it again counts on, of any
parser. The reader here has it, so it is a parser to test such a program with.
-/

namespace Json

namespace Scalar

def toValue : Scalar → Value
  | null => .null
  | string s => .string s
  | int n => .number (.int n)

/-- The integers a parser keeps as integers. -/
def Fits : Scalar → Prop
  | int n => -(2 ^ 63) ≤ n ∧ n < 2 ^ 64
  | _ => True

end Scalar

/-! ## The reader -/

/-- The body of a quoted string, and what follows its closing mark. -/
def readQuoted : Nat → List Char → Option (List Char × List Char)
  | 0, _ => none
  | fuel + 1, text =>
      if text.head? = some quotationMark then some ([], text.tail)
      else
        match unescapeHead text with
        | none => none
        | some (c, rest) => (readQuoted fuel rest).map fun read => (c :: read.1, read.2)

/-- An integer outside the 64 bits a parser has for one is kept as a float. -/
def readInt (digits : String) : Option Value :=
  digits.toInt?.map fun n =>
    if -(2 ^ 63) ≤ n ∧ n < 2 ^ 64 then .number (.int n) else .number (.float digits)

def readScalar (text : List Char) : Option (Value × List Char) :=
  match text with
  | [] => none
  | c :: rest =>
      if c = quotationMark then
        (readQuoted text.length rest).map fun read => (.string (String.ofList read.1), read.2)
      else if c = 'n' then
        if rest.take 3 = ['u', 'l', 'l'] then some (.null, rest.drop 3) else none
      else
        (readInt (String.ofList (text.takeWhile isNumeric))).map fun value =>
          (value, text.dropWhile isNumeric)

def readMember (text : List Char) : Option ((String × Value) × List Char) :=
  match text with
  | [] => none
  | c :: rest =>
      if c ≠ quotationMark then none
      else
        match readQuoted text.length rest with
        | some (key, ':' :: rest) =>
            (readScalar rest).map fun read => ((String.ofList key, read.1), read.2)
        | _ => none

def readMembers : Nat → List Char → Option (Object × List Char)
  | 0, _ => none
  | fuel + 1, text =>
      match readMember text with
      | some (member, '}' :: rest) => some ([member], rest)
      | some (member, ',' :: rest) =>
          (readMembers fuel rest).map fun read => (member :: read.1, read.2)
      | _ => none

/-- An object and nothing after it. -/
def readObject (text : List Char) : Option Value :=
  if text = ['{', '}'] then some (.object [])
  else
    match text with
    | '{' :: rest =>
        match readMembers text.length rest with
        | some (members, []) =>
            if (members.map Prod.fst).Nodup then some (.object members) else none
        | _ => none
    | _ => none

/-! ## What was written is read -/

theorem escapeChar_head_ne (c : Char) (x : List Char) :
    (escapeChar c ++ x).head? ≠ some quotationMark := by
  intro h
  obtain ⟨y, hy⟩ := List.head?_eq_some_iff.mp h
  have hread := unescapeHead_escapeChar c x
  rw [hy, unescapeHead_quotationMark] at hread
  exact absurd hread (by simp)

theorem escapeChar_ne_nil (c : Char) : escapeChar c ≠ [] := by
  intro h
  have hread := unescapeHead_escapeChar c []
  rw [h] at hread
  exact absurd hread (by simp [unescapeHead])

theorem length_le_flatMap_escapeChar (cs : List Char) :
    cs.length ≤ (cs.flatMap escapeChar).length := by
  induction cs with
  | nil => exact Nat.le_refl 0
  | cons c cs ih =>
      have hpos := List.length_pos_iff.mpr (escapeChar_ne_nil c)
      rw [List.flatMap_cons, List.length_append, List.length_cons]
      omega

theorem readQuoted_escaped {cs rest : List Char} {k : Nat} (hk : cs.length < k) :
    readQuoted k (cs.flatMap escapeChar ++ quotationMark :: rest) = some (cs, rest) := by
  induction cs generalizing k with
  | nil =>
      obtain ⟨k, rfl⟩ := Nat.exists_eq_succ_of_ne_zero (Nat.ne_of_gt hk)
      rfl
  | cons c cs ih =>
      obtain ⟨k, rfl⟩ := Nat.exists_eq_succ_of_ne_zero (Nat.ne_of_gt (Nat.zero_lt_of_lt hk))
      have hrest := ih (k := k) (by simpa using hk)
      rw [List.flatMap_cons, List.append_assoc, readQuoted, if_neg (escapeChar_head_ne c _),
        unescapeHead_escapeChar]
      simp only [hrest, Option.map_some]

/-- The fuel a caller gives, the length of the text, is enough. -/
theorem readQuoted_quote (s : String) (rest : List Char) :
    ∃ body, quote s ++ rest = quotationMark :: body
      ∧ readQuoted (quotationMark :: body).length body = some (s.toList, rest) := by
  refine ⟨s.toList.flatMap escapeChar ++ quotationMark :: rest, ?_, ?_⟩
  · simp [quote, List.append_assoc]
  · apply readQuoted_escaped
    have := length_le_flatMap_escapeChar s.toList
    simp only [List.length_cons, List.length_append]
    omega

theorem takeWhile_append_of_all {p : Char → Bool} {a x : List Char} (ha : ∀ c ∈ a, p c = true)
    (hx : ∀ c ∈ x.head?, p c = false) :
    (a ++ x).takeWhile p = a ∧ (a ++ x).dropWhile p = x := by
  have htake : x.takeWhile p = [] := by
    cases x with
    | nil => rfl
    | cons c x => simp [hx c rfl]
  have hdrop : x.dropWhile p = x := by
    cases x with
    | nil => rfl
    | cons c x => simp [hx c rfl]
  rw [List.takeWhile_append_of_pos ha, List.dropWhile_append_of_pos ha, htake, hdrop]
  exact ⟨List.append_nil a, rfl⟩

theorem readInt_toString {n : Int} (hn : (Scalar.int n).Fits) :
    readInt (toString n) = some (.number (.int n)) := by
  have hrepr : (toString n).toInt? = some n := Int.toInt?_repr n
  have hrange : -(2 ^ 63) ≤ n ∧ n < 2 ^ 64 := hn
  rw [readInt, hrepr, Option.map_some, if_pos hrange]

/-- A scalar is read up to the comma or brace that follows it. -/
theorem readScalar_renderScalar {v : Scalar} (hv : v.Fits) {rest : List Char}
    (hrest : ∀ c ∈ rest.head?, isNumeric c = false) :
    readScalar (renderScalar v ++ rest) = some (v.toValue, rest) := by
  cases v with
  | null => rfl
  | string s =>
      obtain ⟨body, hbody, hread⟩ := readQuoted_quote s rest
      show readScalar (quote s ++ rest) = _
      rw [hbody, readScalar, if_pos rfl, hread, Option.map_some, String.ofList_toList]
      rfl
  | int n =>
      obtain ⟨c, ds, hc⟩ := List.exists_cons_of_ne_nil (renderInt_ne_nil n)
      obtain ⟨htake, hdrop⟩ := takeWhile_append_of_all (p := isNumeric)
        (fun c hc => isNumeric_of_mem (n := n) hc) hrest
      have hnum : isNumeric c = true :=
        isNumeric_of_mem (n := n) (by rw [hc]; exact List.mem_cons_self)
      have hquote : c ≠ quotationMark := by
        intro h
        rw [h] at hnum
        exact absurd hnum (by decide)
      have hnull : c ≠ 'n' := by
        intro h
        rw [h] at hnum
        exact absurd hnum (by decide)
      show readScalar ((toString n).toList ++ rest) = _
      rw [hc] at htake hdrop ⊢
      rw [List.cons_append] at htake hdrop ⊢
      rw [readScalar, if_neg hquote, if_neg hnull, htake, hdrop, ← hc, String.ofList_toList,
        readInt_toString hv]
      rfl

theorem readMember_renderMember {m : String × Scalar} (hm : m.2.Fits) {rest : List Char}
    (hrest : ∀ c ∈ rest.head?, isNumeric c = false) :
    readMember (renderMember m ++ rest) = some ((m.1, m.2.toValue), rest) := by
  obtain ⟨key, v⟩ := m
  obtain ⟨body, hbody, hread⟩ := readQuoted_quote key (':' :: (renderScalar v ++ rest))
  have htext : renderMember (key, v) ++ rest = quotationMark :: body := by
    rw [← hbody, renderMember, List.append_assoc, List.cons_append]
  rw [htext, readMember, if_neg (by simp), hread]
  simp only [readScalar_renderScalar hm hrest, Option.map_some, String.ofList_toList]

theorem readMembers_render {m : String × Scalar} {ms : List (String × Scalar)} {k : Nat}
    (hk : ms.length < k) (hm : m.2.Fits) (hms : ∀ n ∈ ms, n.2.Fits) :
    readMembers k (renderMember m ++ renderTail ms)
      = some ((m :: ms).map fun n => (n.1, n.2.toValue), []) := by
  induction ms generalizing m k with
  | nil =>
      obtain ⟨j, rfl⟩ := Nat.exists_eq_succ_of_ne_zero (Nat.ne_of_gt hk)
      rw [readMembers, readMember_renderMember hm (renderTail_head_not_numeric [])]
      rfl
  | cons n ms ih =>
      obtain ⟨j, rfl⟩ := Nat.exists_eq_succ_of_ne_zero (Nat.ne_of_gt (Nat.zero_lt_of_lt hk))
      have hrest := ih (m := n) (k := j) (by simpa using hk) (hms n List.mem_cons_self)
        (fun l hl => hms l (List.mem_cons_of_mem _ hl))
      rw [readMembers, readMember_renderMember hm (renderTail_head_not_numeric (n :: ms))]
      simp only [renderTail, hrest, Option.map_some, List.map_cons]

theorem length_le_renderTail (ms : List (String × Scalar)) :
    ms.length < (renderTail ms).length := by
  induction ms with
  | nil => exact Nat.one_pos
  | cons m ms ih =>
      simp only [renderTail, List.length_cons, List.length_append]
      omega

/-- **The members of a rendered object are read back.** -/
theorem readObject_renderObject {ms : List (String × Scalar)} (hkeys : (ms.map Prod.fst).Nodup)
    (hfit : ∀ m ∈ ms, m.2.Fits) :
    readObject (renderObject ms).toList
      = some (.object (ms.map fun m => (m.1, m.2.toValue))) := by
  cases ms with
  | nil => rfl
  | cons m ms =>
      have hne : '{' :: (renderMember m ++ renderTail ms) ≠ ['{', '}'] := by
        intro h
        have hmark : quotationMark :: _ = '}' :: _ := (List.cons.inj h).2
        exact absurd (List.cons.inj hmark).1 (by decide)
      have hmembers : readMembers ('{' :: (renderMember m ++ renderTail ms)).length
          (renderMember m ++ renderTail ms)
          = some ((m :: ms).map fun n => (n.1, n.2.toValue), []) := by
        apply readMembers_render _ (hfit m List.mem_cons_self)
          (fun n hn => hfit n (List.mem_cons_of_mem _ hn))
        have := length_le_renderTail ms
        simp only [List.length_cons, List.length_append]
        omega
      have hnodup : (((m :: ms).map fun n => (n.1, n.2.toValue)).map Prod.fst).Nodup := by
        rw [List.map_map]
        exact hkeys
      rw [renderObject, String.toList_ofList, readObject, if_neg hne]
      simp only [hmembers, if_pos hnodup]

theorem lookup_map_toValue (ms : List (String × Scalar)) (key : String) :
    (ms.map fun m => (m.1, m.2.toValue)).lookup key = (ms.lookup key).map Scalar.toValue := by
  induction ms with
  | nil => rfl
  | cons m ms ih =>
      rw [List.map_cons, List.lookup_cons, List.lookup_cons]
      by_cases hkey : (key == m.1) = true
      · simp only [hkey, Option.map_some]
      · simp only [hkey, ih]

end Json

/-! ## Parsers -/

namespace JsonParser

open Json (Scalar renderObject)

/-- A rendered object is parsed to an object with the same members. -/
class ReadsBack [JsonParser] : Prop where
  parse_renderObject : ∀ ms : List (String × Scalar), (ms.map Prod.fst).Nodup →
    (∀ m ∈ ms, m.2.Fits) →
    ∃ value, JsonParser.parse (Text.utf8 (renderObject ms)) = some value
      ∧ ∀ key, value.get key = (ms.lookup key).map Scalar.toValue

/-- The reader of rendered objects. -/
@[reducible] def ofRendered : JsonParser where
  parse bytes := (String.fromUTF8? ⟨bytes.toArray⟩).bind fun text => Json.readObject text.toList

theorem ofRendered_readsBack : @ReadsBack ofRendered :=
  let _ := ofRendered
  { parse_renderObject := by
      intro ms hkeys hfit
      refine ⟨.object (ms.map fun m => (m.1, m.2.toValue)), ?_, ?_⟩
      · show (String.fromUTF8? ⟨(Text.utf8 (renderObject ms)).toArray⟩).bind
          (fun text => Json.readObject text.toList) = _
        rw [Text.fromUTF8?_utf8]
        exact Json.readObject_renderObject hkeys hfit
      · intro key
        exact Json.lookup_map_toValue ms key }

end JsonParser

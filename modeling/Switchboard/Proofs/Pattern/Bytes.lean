import Switchboard.Proofs.Pattern.Counter
import Switchboard.Proofs.Pattern.Tidying

namespace Switchboard

open Nesting (outset)

namespace Text

def bytes (cs : List Char) : List UInt8 :=
  cs.flatMap String.utf8EncodeChar

def slice? (s : String) (r : Nat × Nat) : Option String := do
  let first ← s.pos? ⟨r.1⟩
  let last ← s.pos? ⟨r.2⟩
  return (← s.slice? first last).copy

end Text

namespace Bracket

open Text (bytes)

def separatorBytes (b : Bracket) : List UInt8 :=
  b.separator.map Char.toUInt8

-- Where the pieces of a text begin and end in its bytes. The last cut was at `first`, the scan
-- stands at `here`, and the bytes from there on are left.
def ranges (b : Bracket) (n : Nesting Int32) (first here : Nat) : List UInt8 → List (Nat × Nat)
  | []      => [(first, here)]
  | x :: xs =>
    if x = '"'.toUInt8 then b.ranges { n with quoted := !n.quoted } first (here + 1) xs
    else if !n.quoted && (x = '['.toUInt8 || x = '('.toUInt8) then
      b.ranges { n with depth := n.depth + 1 } first (here + 1) xs
    else if !n.quoted && (x = ']'.toUInt8 || x = ')'.toUInt8) then
      b.ranges { n with depth := n.depth - 1 } first (here + 1) xs
    else if n.isTop && b.separatorBytes.isPrefixOf (x :: xs) then
      let next := here + b.separatorBytes.length
      (first, here) :: b.ranges n next next ((x :: xs).drop b.separatorBytes.length)
    else b.ranges n first (here + 1) xs
termination_by xs => xs.length
decreasing_by
  · simp
  · simp
  · simp
  · have := b.length_separator_pos
    simp only [separatorBytes, List.length_map, List.length_drop, List.length_cons]
    omega
  · simp

def cut? (b : Bracket) (s : String) : Option (List String) :=
  if s.isEmpty then some []
  else (b.ranges (outset Int32) 0 0 s.toByteArray.data.toList).mapM (Text.slice? s)

def extents (b : Bracket) (first here : Nat) : List (List Char) → List (Nat × Nat)
  | []      => []
  | e :: es =>
    let last := here + (bytes e).length
    let next := last + b.separator.length
    (first, last) :: b.extents next next es

end Bracket

namespace Text

variable {c d : Char} {cs ds : List Char} {s : String}

@[simp]
theorem bytes_nil : bytes [] = [] :=
  rfl

@[simp]
theorem bytes_cons : bytes (c :: cs) = String.utf8EncodeChar c ++ bytes cs :=
  List.flatMap_cons

@[simp]
theorem bytes_append : bytes (cs ++ ds) = bytes cs ++ bytes ds :=
  List.flatMap_append

theorem utf8EncodeChar_cases (c : Char) :
    (c.toNat < 128 ∧ String.utf8EncodeChar c = [c.toUInt8]) ∨
      (128 ≤ c.toNat ∧ ∀ x ∈ String.utf8EncodeChar c, 128 ≤ x.toNat) := by
  by_cases hc : c.toNat < 128
  case pos =>
    have hs : c.utf8Size = 1 := Char.utf8Size_eq_one_iff.mpr (UInt32.le_iff_toNat_le.mpr
      (Nat.le_of_lt_succ hc))
    exact .inl ⟨hc, String.utf8EncodeChar_eq_singleton hs⟩
  case neg =>
    have hn : ¬c.val.toNat ≤ 127 := fun h => hc (Nat.lt_succ_of_le h)
    refine .inr ⟨Nat.le_of_not_lt hc, ?_⟩
    simp only [String.utf8EncodeChar, if_neg hn]
    split
    case isTrue => simp; omega
    case isFalse =>
      split
      case isTrue  => simp; omega
      case isFalse => simp; omega

theorem toNat_toUInt8 (h : c.toNat < 128) : c.toUInt8.toNat = c.toNat :=
  (UInt32.toNat_toUInt8 c.val).trans (Nat.mod_eq_of_lt (Nat.lt_trans h (by decide)))

theorem toUInt8_inj (hc : c.toNat < 128) (hd : d.toNat < 128) :
    c.toUInt8 = d.toUInt8 ↔ c = d := by
  rw [← UInt8.toNat_inj, toNat_toUInt8 hc, toNat_toUInt8 hd, Char.toNat_inj]

theorem utf8EncodeChar_of_lt (h : c.toNat < 128) : String.utf8EncodeChar c = [c.toUInt8] :=
  (utf8EncodeChar_cases c).elim And.right fun hc => absurd h (Nat.not_lt.mpr hc.left)

theorem bytes_of_forall (h : ∀ c ∈ cs, c.toNat < 128) : bytes cs = cs.map Char.toUInt8 := by
  induction cs
  case nil => rfl
  case cons c cs hi =>
    have ⟨hc, hs⟩ := List.forall_mem_cons.mp h
    rw [bytes_cons, utf8EncodeChar_of_lt hc, hi hs, List.map_cons, List.singleton_append]

theorem map_prefix_bytes_iff (h : ∀ c ∈ cs, c.toNat < 128) :
    cs.map Char.toUInt8 <+: bytes ds ↔ cs <+: ds := by
  induction cs generalizing ds
  case nil => simp
  case cons c cs hi =>
    have ⟨hc, hs⟩ := List.forall_mem_cons.mp h
    cases ds
    case nil => simp
    case cons d ds =>
      rw [List.map_cons, bytes_cons, List.cons_prefix_cons, ← hi hs]
      cases utf8EncodeChar_cases d
      case inl hd =>
        rw [hd.right, List.singleton_append, List.cons_prefix_cons, toUInt8_inj hc hd.left]
      case inr hd =>
        have ⟨x, xs, hx⟩ := List.exists_cons_of_ne_nil (String.utf8EncodeChar_ne_nil (c := d))
        have hl : 128 ≤ x.toNat := hd.right x (by simp [hx])
        have hb : c.toUInt8 ≠ x := fun h => by rw [← h, toNat_toUInt8 hc] at hl; omega
        have hn : c ≠ d := fun h => by rw [h] at hc; omega
        simp [hx, List.cons_prefix_cons, hb, hn]

theorem pos?_offset (p : s.Pos) : s.pos? p.offset = some p := by
  have h : p.offset.isValidForSlice s.toSlice := by
    simpa using p.isValid
  simp only [String.pos?, String.Slice.pos?, dif_pos h, Option.map_some, Option.some.injEq]
  exact String.Pos.ext rfl

theorem slice?_append (t₁ t t₂ : String) :
    slice? (t₁ ++ t ++ t₂) (t₁.utf8ByteSize, (t₁ ++ t).utf8ByteSize) = some t := by
  let first : (t₁ ++ t ++ t₂).Pos := .ofEqAppend (String.append_assoc ..)
  let last : (t₁ ++ t ++ t₂).Pos := .ofEqAppend rfl
  have hf : first.Splits t₁ (t ++ t₂) := String.Pos.splits_ofEqAppend _
  have hl : last.Splits (t₁ ++ t) t₂ := String.Pos.splits_ofEqAppend _
  have ⟨h, hs⟩ := String.copy_slice_eq_iff_splits.mpr ⟨t₁, t₂, hf, hl⟩
  have hf' : (t₁ ++ t ++ t₂).pos? ⟨t₁.utf8ByteSize⟩ = some first :=
    (congrArg _ hf.offset_eq_rawEndPos.symm).trans (pos?_offset first)
  have hl' : (t₁ ++ t ++ t₂).pos? ⟨(t₁ ++ t).utf8ByteSize⟩ = some last :=
    (congrArg _ hl.offset_eq_rawEndPos.symm).trans (pos?_offset last)
  simp only [slice?, hf', hl', String.slice?, dif_pos h, hs, Option.bind_eq_bind, Option.bind_some,
    Option.pure_def]

theorem bytes_toList (s : String) : bytes s.toList = s.toByteArray.data.toList := by
  conv_rhs => rw [← String.ofList_toList (s := s), String.toByteArray_ofList, List.utf8Encode]
  simp [bytes]

theorem length_bytes : (bytes cs).length = (String.ofList cs).utf8ByteSize := by
  rw [← String.toList_ofList (l := cs), bytes_toList, String.toList_ofList, Array.length_toList]
  exact String.size_toByteArray

theorem slice?_bytes (cs ds es : List Char) :
    slice? (String.ofList (cs ++ (ds ++ es)))
        ((bytes cs).length, (bytes cs).length + (bytes ds).length) =
      some (String.ofList ds) := by
  have h := slice?_append (String.ofList cs) (String.ofList ds) (String.ofList es)
  rwa [String.utf8ByteSize_append, ← length_bytes, ← length_bytes, ← String.ofList_append,
    ← String.ofList_append, List.append_assoc] at h

end Text

namespace Bracket

open Text

variable {b : Bracket} {n : Nesting Int32} {first here : Nat} {c : Char} {cs : List Char}
variable {x : UInt8} {xs ys : List UInt8} {es : List (List Char)}

theorem toNat_lt_of_mem_separator : ∀ c ∈ b.separator, c.toNat < 128 := by
  cases b <;> simp [separator]

theorem separatorBytes_prefix_iff : b.separatorBytes <+: bytes cs ↔ b.separator <+: cs :=
  map_prefix_bytes_iff toNat_lt_of_mem_separator

theorem toNat_lt_of_not_isPlain (h : ¬Nesting.IsPlain c) : c.toNat < 128 := by
  by_contra hc
  have hd : ∀ {d : Char}, d.toNat < 128 → c ≠ d := fun hd he => hc (he ▸ hd)
  simp [Nesting.IsPlain, Text.isBracket, hd (d := '"') (by decide), hd (d := '[') (by decide),
    hd (d := ']') (by decide), hd (d := '(') (by decide), hd (d := ')') (by decide)] at h

theorem step_of_le (h : 128 ≤ c.toNat) : n.step c = n :=
  Nesting.step_of_isPlain (by_contra fun hc => Nat.not_lt.mpr h (toNat_lt_of_not_isPlain hc))

-- A byte that is neither a quote nor a bracket is passed over, unless a separator begins there.
theorem ranges_of_isPlain (hx : ∀ d, ¬Nesting.IsPlain d → x ≠ d.toUInt8) :
    b.ranges n first here (x :: xs) =
      if n.isTop && b.separatorBytes.isPrefixOf (x :: xs) then
        (first, here) :: b.ranges n (here + b.separator.length) (here + b.separator.length)
          ((x :: xs).drop b.separator.length)
      else b.ranges n first (here + 1) xs := by
  have hl : b.separatorBytes.length = b.separator.length := List.length_map _
  have hq : x ≠ '"'.toUInt8 := hx _ fun h => h.left rfl
  have hb : ∀ {d : Char}, isBracket d → x ≠ d.toUInt8 := fun hd => hx _ fun h => h.right hd
  rw [ranges, hl]
  simp [hq, hb (d := '[') (by decide), hb (d := ']') (by decide), hb (d := '(') (by decide),
    hb (d := ')') (by decide)]

theorem ranges_append (h : ∀ x ∈ ys, 128 ≤ x.toNat) :
    b.ranges n first here (ys ++ xs) = b.ranges n first (here + ys.length) xs := by
  induction ys generalizing here
  case nil => rfl
  case cons y ys hi =>
    have ⟨hy, hs⟩ := List.forall_mem_cons.mp h
    have hd : ∀ d : Char, d.toNat < 128 → y ≠ d.toUInt8 := fun d hd he => by
      rw [he, toNat_toUInt8 hd] at hy
      omega
    have hp : ¬b.separatorBytes <+: y :: (ys ++ xs) := by
      have hl := hd ',' (by decide)
      have hr := hd ':' (by decide)
      cases b <;> simp [separatorBytes, separator, Ne.symm hl, Ne.symm hr]
    rw [List.cons_append, ranges_of_isPlain fun d hn => hd d (toNat_lt_of_not_isPlain hn)]
    simp [hp, hi hs, Nat.add_assoc, Nat.add_comm 1]

theorem ranges_toUInt8 (hc : c.toNat < 128)
    (h : ¬(n.isTop && b.separatorBytes.isPrefixOf (c.toUInt8 :: xs))) :
    b.ranges n first here (c.toUInt8 :: xs) = b.ranges (n.step c) first (here + 1) xs := by
  have hi : ∀ {d : Char}, d.toNat < 128 → (c.toUInt8 = d.toUInt8 ↔ c = d) := toUInt8_inj hc
  rw [ranges]
  simp only [hi (d := '"') (by decide), hi (d := '[') (by decide), hi (d := ']') (by decide),
    hi (d := '(') (by decide), hi (d := ')') (by decide), h, Nesting.step]
  by_cases hq : c = '"'
  case pos => simp [hq]
  case neg =>
    cases hn : n.quoted
    case true  => simp [hq]
    case false => simp [hq, apply_ite (b.ranges · first (here + 1) xs)]

theorem length_bytes_separator : (bytes b.separator).length = b.separator.length := by
  rw [bytes_of_forall toNat_lt_of_mem_separator, List.length_map]

theorem drop_bytes (h : b.separator <+: cs) :
    (bytes cs).drop b.separator.length = bytes (cs.drop b.separator.length) := by
  have ⟨ds, hd⟩ := h
  rw [← hd, bytes_append, List.drop_left, ← length_bytes_separator, List.drop_left]

-- No separator begins with a quote or a bracket, which are what a scan asks for first.
theorem ranges_cut (ht : n.isTop) (h : b.separator <+: cs) :
    b.ranges n first here (bytes cs) =
      (first, here) :: b.ranges n (here + b.separator.length) (here + b.separator.length)
        (bytes (cs.drop b.separator.length)) := by
  obtain ⟨s, ss, hs⟩ := List.exists_cons_of_ne_nil (separator_ne_nil (b := b))
  have hm : s ∈ b.separator := by simp [hs]
  have hl := toNat_lt_of_mem_separator s hm
  obtain ⟨xs, hx⟩ : ∃ xs, bytes cs = s.toUInt8 :: xs := by
    obtain ⟨ds, rfl⟩ := h
    exact ⟨_, by rw [hs, List.cons_append, bytes_cons, utf8EncodeChar_of_lt hl]; rfl⟩
  have hd : ∀ d, ¬Nesting.IsPlain d → s.toUInt8 ≠ d.toUInt8 := fun d hd he => by
    rw [toUInt8_inj hl (toNat_lt_of_not_isPlain hd)] at he
    exact hd (he ▸ Nesting.isPlain_separator s hm)
  have hp := List.isPrefixOf_iff_prefix.mpr (separatorBytes_prefix_iff.mpr h)
  rw [← drop_bytes h, hx, ranges_of_isPlain hd, if_pos (by rw [ht, ← hx, hp]; rfl)]

theorem extents_modifyHead_cons :
    b.extents first here (es.modifyHead (c :: ·)) =
      b.extents first (here + (String.utf8EncodeChar c).length) es := by
  cases es <;> simp [extents, Nat.add_assoc]

theorem ranges_bytes (b : Bracket) (n : Nesting Int32) (first here : Nat) (cs : List Char) :
    b.ranges n first here (bytes cs) = b.extents first here (b.pieces n cs) := by
  fun_induction pieces b n cs generalizing first here
  case case1 => simp [ranges, extents]
  case case2 n c cs h hi =>
    obtain ⟨ht, hp⟩ := Bool.and_eq_true_iff.mp h
    rw [List.isPrefixOf_iff_prefix] at hp
    rw [ranges_cut ht hp, hi]
    simp [extents]
  case case3 n c cs h hi =>
    rw [extents_modifyHead_cons, ← hi, bytes_cons]
    cases utf8EncodeChar_cases c
    case inl hc =>
      have hb : bytes (c :: cs) = c.toUInt8 :: bytes cs := by simp [hc.right]
      rw [hc.right, List.singleton_append]
      refine ranges_toUInt8 hc.left ?_
      simp only [Bool.and_eq_true, List.isPrefixOf_iff_prefix] at h ⊢
      rwa [← hb, separatorBytes_prefix_iff]
    case inr hc => rw [ranges_append hc.right, step_of_le hc.left]

theorem mapM_extents (as : List Char) (es : List (List Char)) :
    (b.extents (bytes as).length (bytes as).length es).mapM
        (slice? (String.ofList (as ++ b.separator.intercalate es))) =
      some (es.map String.ofList) := by
  induction es generalizing as
  case nil => rfl
  case cons e es hi =>
    rw [extents, List.mapM_cons]
    cases es
    case nil =>
      have hs := slice?_bytes as e []
      rw [List.append_nil] at hs
      rw [List.intercalate_singleton, hs]
      rfl
    case cons e' es =>
      have hj : b.separator.intercalate (e :: e' :: es) = _ :=
        List.intercalate_cons_of_ne_nil (List.cons_ne_nil e' es)
      have hi := hi (as ++ e ++ b.separator)
      rw [bytes_append, bytes_append, List.length_append, List.length_append,
        length_bytes_separator, List.append_assoc, List.append_assoc] at hi
      rw [hj, List.append_assoc, slice?_bytes, hi]
      rfl

theorem cut?_eq (b : Bracket) (s : String) :
    b.cut? s = some ((b.elementsIn Int32 s.toList).map String.ofList) := by
  by_cases hs : s = ""
  case pos => subst hs; rfl
  case neg =>
    have hl : s.toList ≠ [] := by simpa using hs
    have hp := mapM_extents (b := b) [] (b.pieces (outset Int32) s.toList)
    rw [cut?, if_neg (by simpa using hs), ← bytes_toList, ranges_bytes, elementsIn_of_ne_nil hl]
    simpa [intercalate_pieces] using hp

end Bracket

end Switchboard

import Mathlib.Computability.RegularExpressions
import Mathlib.Tactic.IntervalCases
import Switchboard.Proofs.Decimal.Integers

namespace Switchboard.Decimal

namespace Regular

def oneOf (cs : List Char) : RegularExpression Char :=
  (cs.map .char).sum

def digit : RegularExpression Char :=
  oneOf ['0', '1', '2', '3', '4', '5', '6', '7', '8', '9']

def digits : RegularExpression Char :=
  digit * digit.star

def sign : RegularExpression Char :=
  1 + oneOf ['+', '-']

def integer : RegularExpression Char :=
  sign * digits

def mantissa : RegularExpression Char :=
  digits * (1 + oneOf ['.'] * digit.star) + oneOf ['.'] * digits

def power : RegularExpression Char :=
  oneOf ['e', 'E'] * integer

def numeral : RegularExpression Char :=
  sign * (mantissa * (1 + power))

def letters : RegularExpression Char → List Char
  | .zero | .epsilon => []
  | .char c => [c]
  | .plus P Q | .comp P Q => letters P ++ letters Q
  | .star P => letters P

end Regular

open Regular

variable {P Q : RegularExpression Char} {as cs ds es ps : List Char} {c : Char}

theorem mem_oneOf : cs ∈ (oneOf as).matches' ↔ ∃ a ∈ as, cs = [a] := by
  induction as
  case nil          => simp [oneOf]
  case cons a as hi =>
    rw [List.exists_mem_cons_iff, ← hi]
    rfl

theorem mem_optional : cs ∈ (1 + P).matches' ↔ cs = [] ∨ cs ∈ P.matches' := by
  rfl

theorem mem_mul :
    cs ∈ (P * Q).matches' ↔ ∃ as ∈ P.matches', ∃ bs ∈ Q.matches', as ++ bs = cs := by
  rfl

theorem mem_oneOf_mul :
    cs ∈ (oneOf as * P).matches' ↔ ∃ a ∈ as, ∃ rs ∈ P.matches', cs = a :: rs := by
  rw [mem_mul]
  constructor
  case mp =>
    intro ⟨_, ha, rs, hr, he⟩
    have ⟨a, ha, hs⟩ := mem_oneOf.mp ha
    exact ⟨a, ha, rs, hr, by rw [← he, hs]; rfl⟩
  case mpr =>
    intro ⟨a, ha, rs, hr, he⟩
    exact ⟨[a], mem_oneOf.mpr ⟨a, ha, rfl⟩, rs, hr, he.symm⟩

theorem isDigit_iff_mem :
    c.isDigit ↔ c ∈ ['0', '1', '2', '3', '4', '5', '6', '7', '8', '9'] := by
  constructor
  case mp =>
    intro h
    have ⟨hl, hr⟩ := Char.isDigit_iff_toNat.mp h
    rw [← Char.ofNat_toNat c]
    generalize c.toNat = n at hl hr
    change 48 ≤ n at hl
    change n ≤ 57 at hr
    interval_cases n <;> decide
  case mpr => exact List.all_eq_true.mp rfl c

theorem mem_digit : cs ∈ digit.matches' ↔ ∃ c : Char, c.isDigit ∧ cs = [c] := by
  simp only [digit, mem_oneOf, isDigit_iff_mem]

theorem mem_star_digit : cs ∈ digit.star.matches' ↔ ∀ c ∈ cs, c.isDigit := by
  rw [RegularExpression.matches'_star, Language.mem_kstar]
  constructor
  case mp =>
    intro ⟨ts, he, ht⟩ c hc
    subst he
    have ⟨t, hm, hc⟩ := List.mem_flatten.mp hc
    have ⟨d, hd, he⟩ := mem_digit.mp (ht t hm)
    subst he
    exact List.mem_singleton.mp hc ▸ hd
  case mpr =>
    intro h
    refine ⟨cs.map ([·]), (List.flatMap_singleton' cs).symm, ?_⟩
    intro t ht
    have ⟨c, hc, he⟩ := List.mem_map.mp ht
    exact mem_digit.mpr ⟨c, h c hc, he.symm⟩

theorem mem_digits : cs ∈ digits.matches' ↔ IsDigits cs := by
  rw [digits, digit, mem_oneOf_mul, ← digit]
  simp only [mem_star_digit, ← isDigit_iff_mem]
  constructor
  case mp =>
    intro ⟨a, ha, rs, hr, he⟩
    subst he
    exact ⟨List.cons_ne_nil a rs, List.forall_mem_cons.mpr ⟨ha, hr⟩⟩
  case mpr =>
    intro ⟨hn, hd⟩
    cases cs
    case nil       => exact absurd rfl hn
    case cons a rs =>
      have ⟨ha, hr⟩ := List.forall_mem_cons.mp hd
      exact ⟨a, ha, rs, hr, rfl⟩

-- If no text of the language begins with a sign, the sign of a text can be read off first.
theorem mem_sign_mul (h : ∀ rs ∈ P.matches', spanSign rs = (false, rs)) :
    cs ∈ (sign * P).matches' ↔ (spanSign cs).2 ∈ P.matches' := by
  rw [mem_mul]
  constructor
  case mp =>
    intro ⟨ss, hs, rs, hr, he⟩
    subst he
    cases mem_optional.mp hs
    case inl hs => simpa [hs, h rs hr] using hr
    case inr hs =>
      have ⟨a, ha, hs⟩ := mem_oneOf.mp hs
      simp only [List.mem_cons, List.not_mem_nil, or_false] at ha
      cases ha <;> simp_all [spanSign]
  case mpr =>
    intro hr
    unfold spanSign at hr
    split at hr
    case h_1 => exact ⟨['+'], .inr (mem_oneOf.mpr (by simp)), _, hr, rfl⟩
    case h_2 => exact ⟨['-'], .inr (mem_oneOf.mpr (by simp)), _, hr, rfl⟩
    case h_3 => exact ⟨[], .inl rfl, _, hr, rfl⟩

theorem mem_integer : cs ∈ integer.matches' ↔ ∃ n, Denotes cs n := by
  rw [integer, mem_sign_mul fun rs hr => (mem_digits.mp hr).spanSign_eq, mem_digits]
  simp [denotes_iff]

theorem mem_mantissa :
    cs ∈ mantissa.matches' ↔
      IsDigits cs ∨
      ∃ ds es, (∀ c ∈ ds ++ es, c.isDigit) ∧ ds ++ es ≠ [] ∧ cs = ds ++ '.' :: es := by
  rw [mantissa, RegularExpression.matches'_add, Language.mem_add, mem_mul]
  simp only [mem_optional, mem_oneOf_mul, mem_digits, mem_star_digit, List.mem_singleton,
    exists_eq_left, List.forall_mem_append]
  constructor
  case mp =>
    intro h
    rcases h with ⟨ds, hd, _, hn | ⟨es, he, hp⟩, hc⟩ | ⟨es, he, hc⟩
    case inl.inl => exact .inl (by simpa [← hc, hn] using hd)
    case inl.inr => exact .inr ⟨ds, es, ⟨hd.isDigit, he⟩, by simp [hd.ne_nil], hp ▸ hc.symm⟩
    case inr     => exact .inr ⟨[], es, ⟨by simp, he.isDigit⟩, he.ne_nil, hc⟩
  case mpr =>
    intro h
    rcases h with hc | ⟨ds, es, ⟨hd, he⟩, hn, hc⟩
    case inl => exact .inl ⟨cs, hc, [], .inl rfl, cs.append_nil⟩
    case inr =>
      cases ds
      case nil       => exact .inr ⟨es, ⟨hn, he⟩, hc⟩
      case cons d ds => exact .inl ⟨d :: ds, ⟨by simp, hd⟩, _, .inr ⟨es, he, rfl⟩, hc.symm⟩

theorem suffix_spanSign : (spanSign cs).2 <:+ cs := by
  unfold spanSign
  split
  case h_1 rs => exact List.suffix_cons '+' rs
  case h_2 rs => exact List.suffix_cons '-' rs
  case h_3    => exact List.suffix_rfl

theorem spanSign_cons (hc : c.isDigit ∨ c = '.') : spanSign (c :: cs) = (false, c :: cs) := by
  unfold spanSign
  split
  case h_1 he => simp [(List.cons.inj he).left] at hc
  case h_2 he => simp [(List.cons.inj he).left] at hc
  case h_3    => rfl

theorem spanSign_of_mem_mantissa_mul (h : cs ∈ (mantissa * P).matches') :
    spanSign cs = (false, cs) := by
  have ⟨ms, hm, ps, _, he⟩ := mem_mul.mp h
  subst he
  cases mem_mantissa.mp hm
  case inl hd =>
    have ⟨c, rs, hm⟩ := List.exists_cons_of_ne_nil hd.ne_nil
    subst hm
    exact spanSign_cons (.inl (hd.isDigit c List.mem_cons_self))
  case inr h =>
    have ⟨ds, es, hd, _, hs⟩ := h
    subst hs
    cases ds
    case nil  => exact spanSign_cons (.inr rfl)
    case cons => exact spanSign_cons (.inl (hd _ List.mem_cons_self))

theorem spanDigits_append_of_isDigit (hd : ∀ c ∈ ds, c.isDigit) :
    spanDigits (ds ++ ps) = (ds ++ (spanDigits ps).1, (spanDigits ps).2) := by
  rw [spanDigits, List.takeWhile_append_of_pos hd, List.dropWhile_append_of_pos hd]
  rfl

theorem mem_letters (h : cs ∈ P.matches') : ∀ c ∈ cs, c ∈ letters P := by
  induction P generalizing cs
  case zero    => cases h
  case epsilon => cases h; simp
  case char    => cases h; simp [letters]
  case plus P Q hp hq =>
    intro c hc
    cases h
    case inl h => exact List.mem_append_left _ (hp h c hc)
    case inr h => exact List.mem_append_right _ (hq h c hc)
  case comp P Q hp hq =>
    have ⟨as, ha, bs, hb, he⟩ := mem_mul.mp h
    subst he
    exact List.forall_mem_append.mpr ⟨fun c hc => List.mem_append_left _ (hp ha c hc),
      fun c hc => List.mem_append_right _ (hq hb c hc)⟩
  case star P hi =>
    have ⟨ts, he, ht⟩ := Language.mem_kstar.mp h
    subst he
    intro c hc
    have ⟨t, hm, hc⟩ := List.mem_flatten.mp hc
    exact hi (ht t hm) c hc

theorem mem_numeral_of_mem_integer (h : cs ∈ integer.matches') : cs ∈ numeral.matches' := by
  have ⟨ss, hs, ds, hd, he⟩ := mem_mul.mp h
  have hm : ds ∈ mantissa.matches' := mem_mantissa.mpr (.inl (mem_digits.mp hd))
  have hu : ds ∈ (mantissa * (1 + power)).matches' :=
    mem_mul.mpr ⟨ds, hm, [], mem_optional.mpr (.inl rfl), ds.append_nil⟩
  exact mem_mul.mpr ⟨ss, hs, ds, hu, he⟩

theorem isSome_integer?_iff : (integer? cs).isSome ↔ cs ∈ integer.matches' := by
  simp only [mem_integer, Option.isSome_iff_exists, integer?_eq_some_iff]

namespace Numeral

theorem isSome_exponentPart?_iff : (exponentPart? cs).isSome ↔ cs ∈ (1 + power).matches' := by
  rw [mem_optional, power, mem_oneOf_mul]
  simp only [← isSome_integer?_iff]
  cases cs
  case nil       => simp [exponentPart?]
  case cons c cs =>
    by_cases hc : c = 'e' ∨ c = 'E'
    case pos => simp [exponentPart?, hc, ← and_or_left]
    case neg => simp [exponentPart?, hc, ← and_or_left]

def spanPlaces : List Char → List Char × List Char
  | '.' :: cs => spanDigits cs
  | cs => ([], cs)

theorem spanPlaces_cases :
    (∃ rs, cs = '.' :: rs ∧ spanPlaces cs = spanDigits rs) ∨ spanPlaces cs = ([], cs) := by
  unfold spanPlaces
  split
  case h_1 rs => exact .inl ⟨rs, rfl, rfl⟩
  case h_2    => exact .inr rfl

theorem isSome_read?_iff_spans :
    (read? cs).isSome ↔
      (spanDigits (spanSign cs).2).1 ++ (spanPlaces (spanDigits (spanSign cs).2).2).1 ≠ [] ∧
        (exponentPart? (spanPlaces (spanDigits (spanSign cs).2).2).2).isSome := by
  have hr : read? cs =
      if (spanDigits (spanSign cs).2).1.isEmpty &&
        (spanPlaces (spanDigits (spanSign cs).2).2).1.isEmpty then none
      else (exponentPart? (spanPlaces (spanDigits (spanSign cs).2).2).2).map _ := rfl
  rw [hr, apply_ite Option.isSome, Option.isSome_map]
  split
  case isTrue hn  => simp_all
  case isFalse hn => simp_all

theorem eq_of_isSome_exponentPart? (h : (exponentPart? (c :: ps)).isSome) :
    c = 'e' ∨ c = 'E' := by
  by_contra hc
  simp [exponentPart?, hc] at h

theorem spanDigits_of_isSome (h : (exponentPart? ps).isSome) : spanDigits ps = ([], ps) := by
  cases ps
  case nil       => rfl
  case cons c ps => cases eq_of_isSome_exponentPart? h <;> subst_vars <;> rfl

theorem spanPlaces_of_isSome (h : (exponentPart? ps).isSome) : spanPlaces ps = ([], ps) := by
  cases ps
  case nil       => rfl
  case cons c ps => cases eq_of_isSome_exponentPart? h <;> subst_vars <;> rfl

theorem spanDigits_append_of_isSome (hd : ∀ c ∈ ds, c.isDigit) (h : (exponentPart? ps).isSome) :
    spanDigits (ds ++ ps) = (ds, ps) := by
  rw [spanDigits_append_of_isDigit hd, spanDigits_of_isSome h, List.append_nil]

-- Neither the digits nor the places can be cut shorter: what a power of ten begins with continues
-- none of them.
theorem isSome_read?_iff : (read? cs).isSome ↔ cs ∈ numeral.matches' := by
  rw [numeral, mem_sign_mul fun _ => spanSign_of_mem_mantissa_mul, mem_mul,
    isSome_read?_iff_spans]
  generalize (spanSign cs).2 = us
  constructor
  case mp =>
    intro ⟨hn, hp⟩
    have hd : ∀ c ∈ (spanDigits us).1, c.isDigit := fun _ => isDigit_of_mem_spanDigits
    have hu := spanDigits_append us
    cases @spanPlaces_cases (spanDigits us).2
    case inl h =>
      have ⟨rs, hr, hs⟩ := h
      rw [hs] at hn hp
      rw [hr, ← spanDigits_append rs] at hu
      refine ⟨_, mem_mantissa.mpr (.inr ⟨_, _, ?_, hn, rfl⟩), _,
        isSome_exponentPart?_iff.mp hp, by simpa using hu⟩
      exact List.forall_mem_append.mpr ⟨hd, fun _ => isDigit_of_mem_spanDigits⟩
    case inr h =>
      rw [h] at hn hp
      rw [List.append_nil] at hn
      exact ⟨_, mem_mantissa.mpr (.inl ⟨hn, hd⟩), _, isSome_exponentPart?_iff.mp hp, hu⟩
  case mpr =>
    intro ⟨ms, hm, ps, hp, he⟩
    have hp := isSome_exponentPart?_iff.mpr hp
    subst he
    cases mem_mantissa.mp hm
    case inl hd =>
      rw [spanDigits_append_of_isSome hd.isDigit hp, spanPlaces_of_isSome hp, List.append_nil]
      exact ⟨hd.ne_nil, hp⟩
    case inr h =>
      have ⟨ds, es, hd, hn, hm⟩ := h
      have ⟨hd, he⟩ := List.forall_mem_append.mp hd
      subst hm
      have hs : spanDigits (ds ++ '.' :: (es ++ ps)) = (ds, '.' :: (es ++ ps)) := by
        rw [spanDigits_append_of_isDigit hd]
        simp [spanDigits]
      simp only [List.append_assoc, List.cons_append, hs, spanPlaces,
        spanDigits_append_of_isSome he hp]
      exact ⟨hn, hp⟩

end Numeral

theorem looksNumeric_of_mem_numeral (h : cs ∈ numeral.matches') : looksNumeric cs := by
  have hl : (letters numeral).all fun c =>
      c.isDigit || ['+', '-', '.', 'e', 'E'].contains c := by decide
  have ha := fun c hc => List.all_eq_true.mp hl c (mem_letters h c hc)
  obtain ⟨ss, _, _, hu, rfl⟩ := mem_mul.mp h
  obtain ⟨ms, hm, ps, _, rfl⟩ := mem_mul.mp hu
  have ⟨c, hc, hd⟩ : ∃ c ∈ ms, c.isDigit := by
    rcases mem_mantissa.mp hm with hd | ⟨ds, es, hd, hn, rfl⟩
    case inl =>
      have ⟨c, hc⟩ := List.exists_mem_of_ne_nil _ hd.ne_nil
      exact ⟨c, hc, hd.isDigit c hc⟩
    case inr =>
      have ⟨c, hc⟩ := List.exists_mem_of_ne_nil _ hn
      have hm : c ∈ ds ++ '.' :: es := by
        rcases List.mem_append.mp hc with hc | hc
        · exact List.mem_append_left _ hc
        · exact List.mem_append_right _ (List.mem_cons_of_mem _ hc)
      exact ⟨c, hm, hd c hc⟩
  refine Bool.and_eq_true_iff.mpr ⟨List.any_eq_true.mpr ⟨c, ?_, hd⟩, List.all_eq_true.mpr ha⟩
  simp [hc]

theorem toLower_ne_of_looksNumeric (h : looksNumeric cs) (hc : c ∈ cs) : c.toLower ≠ 'n' := by
  have hd : ∀ c ∈ ['0', '1', '2', '3', '4', '5', '6', '7', '8', '9'], c.toLower ≠ 'n' := by simp
  have hs : ∀ c ∈ ['+', '-', '.', 'e', 'E'], c.toLower ≠ 'n' := by simp
  have ha := List.all_eq_true.mp (Bool.and_eq_true_iff.mp h).right c hc
  rcases Bool.or_eq_true_iff.mp ha with ha | ha
  · exact hd c (isDigit_iff_mem.mp ha)
  · exact hs c (List.contains_iff_mem.mp ha)

-- Each number that is spelled in letters has an `n` in it, which may be a capital.
theorem special?_of_looksNumeric (h : looksNumeric cs) : special? cs = none := by
  have hw (w : String) (hn : 'n' ∈ w.toList) :
      String.ofList ((spanSign cs).2.map Char.toLower) ≠ w := by
    rintro rfl
    rw [String.toList_ofList] at hn
    have ⟨c, hc, hl⟩ := List.mem_map.mp hn
    exact toLower_ne_of_looksNumeric h (suffix_spanSign.mem hc) hl
  simp [special?, hw "inf" (by decide), hw "infinity" (by decide), hw "nan" (by decide)]

-- The letters are refused before they are read, and so numerals are all that is accepted.
theorem binary64?_of_looksNumeric (h : looksNumeric cs) :
    binary64? cs = (Numeral.read? cs).map Numeral.toBinary64 := by
  rw [binary64?]
  cases Numeral.read? cs
  case none   => exact special?_of_looksNumeric h
  case some n => rfl

end Switchboard.Decimal

import Switchboard.Proofs.Pattern.Balance
import Switchboard.Proofs.Pattern.Grammar
import Switchboard.Proofs.Text.Joined

namespace Switchboard

open Text (isAllBlank isBlank trim)

variable {n : Nesting Int} {b b' : Bracket} {c : Char} {cs ds e f : List Char} {d : Int}
variable {es : List (List Char)} {g : List Char → List Char}

namespace Nesting

theorem run_deeper :
    run ⟨n.quoted, n.depth + d⟩ cs = ⟨(n.run cs).quoted, (n.run cs).depth + d⟩ := by
  induction cs generalizing n
  case nil => rfl
  case cons c cs hi =>
    have hs : step ⟨n.quoted, n.depth + d⟩ c = ⟨(n.step c).quoted, (n.step c).depth + d⟩ := by
      unfold step
      repeat' split
      all_goals first | rfl | (simp; omega)
    rw [run_cons, hs, hi, run_cons]

theorem run_congr (h : start.run cs = start.run ds) : run ⟨false, d⟩ cs = run ⟨false, d⟩ ds := by
  have hr (xs : List Char) :
      run ⟨false, d⟩ xs = ⟨(start.run xs).quoted, (start.run xs).depth + d⟩ := by
    simpa [outset] using run_deeper (n := start)
  rw [hr, hr, h]

theorem run_of_run_eq_start (h : start.run cs = start) : run ⟨false, d⟩ cs = ⟨false, d⟩ :=
  run_congr (h.trans run_nil.symm)

theorem run_trim : n.run (trim cs) = n.run cs := by
  have ⟨l, r, hl, hr, hc⟩ := Text.exists_eq_append_trim_append cs
  conv_rhs => rw [hc, run_append, run_append, run_of_isAllBlank hl, run_of_isAllBlank hr]

theorem isPlain_separator : ∀ c ∈ b.separator, IsPlain c := by
  cases b <;> simp [Bracket.separator, IsPlain, Text.isBracket]

theorem run_separator : n.run b.separator = n :=
  run_of_forall_isPlain isPlain_separator

theorem step_opening : step ⟨false, d⟩ b.opening = ⟨false, d + 1⟩ := by
  cases b <;> rfl

end Nesting

namespace Bracket

open Nesting (start)

theorem prefix_of_prefix_cons_append (hd : ∀ c ∈ ds.head?, ¬isBlank c)
    (h : b.separator <+: c :: (cs ++ ds)) : b.separator <+: c :: cs := by
  cases cs
  case cons c' cs => cases b <;> simpa [separator] using h
  case nil =>
    cases b
    case round => simpa [separator] using h
    case square =>
      cases ds
      case nil => exact h
      case cons c' ds =>
        simp only [separator, List.nil_append, List.cons_prefix_cons] at h
        exact absurd (h.right.left ▸ by decide) (hd c' rfl)

theorem IsUncut.append (hc : b.IsUncut n cs) (hd : b.IsUncut (n.run cs) ds)
    (hb : ∀ c ∈ ds.head?, ¬isBlank c) : b.IsUncut n (cs ++ ds) := by
  induction cs generalizing n
  case nil => exact hd
  case cons c cs hi =>
    have ⟨hs, hc⟩ := isUncut_cons.mp hc
    refine isUncut_cons.mpr ⟨fun ht hp => hs ht ?_, hi hc hd⟩
    exact prefix_of_prefix_cons_append hb hp

theorem isUncut_of_not_isTop (hn : ¬n.isTop) (h : ∀ c ∈ cs, Nesting.IsPlain c) :
    b.IsUncut n cs := by
  rintro as bs rfl ht
  rw [Nesting.run_of_forall_isPlain fun c hc => h c (List.mem_append_left _ hc)] at ht
  exact absurd ht hn

theorem not_prefix_opening : ¬b.separator <+: b'.opening :: cs := by
  cases b <;> cases b' <;> simp [separator, opening]

theorem isUncut_closing : b.IsUncut n [b'.closing] := by
  refine isUncut_cons.mpr ⟨fun _ => ?_, isUncut_nil⟩
  cases b <;> cases b' <;> simp [separator, closing]

end Bracket

-- The second text stands in the place of the first one. It holds no new separator at any depth at
-- which the first one can stand, since what is inside of a text may close brackets further out.
structure Tidies (e f : List Char) : Prop where
  trim_eq    : trim f = f
  eq_nil_iff : f = [] ↔ trim e = []
  run_eq     : Nesting.start.run f = Nesting.start.run e
  isUncut    : ∀ (b : Bracket) (d : Int), 0 ≤ d → b.IsUncut ⟨false, d⟩ e → b.IsUncut ⟨false, d⟩ f

theorem Tidies.trimStart_eq (h : Tidies e f) : Text.trimStart f = f :=
  Text.trimStart_eq_self_iff.mpr (Text.trim_eq_self_iff.mp h.trim_eq).left

theorem Tidies.trimEnd_eq (h : Tidies e f) : Text.trimEnd f = f :=
  Text.trimEnd_eq_self_iff.mpr (Text.trim_eq_self_iff.mp h.trim_eq).right

namespace Bracket

open Nesting (start)

theorem IsUncut.trim (h : b.IsUncut n cs) : b.IsUncut n (Text.trim cs) := by
  have ⟨l, r, hl, _, hc⟩ := Text.exists_eq_append_trim_append cs
  rw [hc] at h
  have ht := (isUncut_append (isUncut_append h).left).right
  rwa [Nesting.run_of_isAllBlank hl] at ht

theorem trimStart_separator : Text.trimStart b.separator = b.separator := by
  cases b <;> decide

-- Deeper than the top the separator itself is not cut, and nothing before it can begin another one.
theorem IsUncut.append_separator_append (hc : b'.IsUncut ⟨false, d⟩ cs) (hd : 0 < d)
    (hr : Nesting.run ⟨false, d⟩ cs = ⟨false, d⟩) (hu : b'.IsUncut ⟨false, d⟩ ds)
    (ht : Text.trimStart ds = ds) : b'.IsUncut ⟨false, d⟩ (cs ++ (b.separator ++ ds)) := by
  have hn : ¬Nesting.isTop ⟨false, d⟩ := by
    simp only [Nesting.isTop, Bool.and_eq_true, beq_iff_eq]
    omega
  have hs : b'.IsUncut ⟨false, d⟩ b.separator := isUncut_of_not_isTop hn Nesting.isPlain_separator
  have htail : b'.IsUncut ⟨false, d⟩ (b.separator ++ ds) :=
    hs.append (Nesting.run_separator ▸ hu) (Text.trimStart_eq_self_iff.mp ht)
  have hb := Text.trimStart_append_of_eq_self (trimStart_separator (b := b)) ht
  exact hc.append (by rwa [hr]) (Text.trimStart_eq_self_iff.mp hb)

theorem trimStart_intercalate_map (hg : ∀ e ∈ es, Tidies e (g e)) :
    Text.trimStart (b.separator.intercalate (es.map g)) = b.separator.intercalate (es.map g) :=
  Text.trimStart_intercalate trimStart_separator
    (List.forall_mem_map.mpr fun e he => (hg e he).trimStart_eq)

theorem trim_intercalate_map (hg : ∀ e ∈ es, Tidies e (g e))
    (h : trim (b.separator.intercalate es) = b.separator.intercalate es) :
    trim (b.separator.intercalate (es.map g)) = b.separator.intercalate (es.map g) := by
  rw [trim, trimStart_intercalate_map hg]
  refine Text.trimEnd_intercalate_map separator_ne_nil (fun e he => ?_) ?_
  · have ht := hg e he
    exact ⟨ht.trimEnd_eq, fun hn => Text.trim_eq_nil_iff.mp (ht.eq_nil_iff.mp hn)⟩
  · exact Text.trimEnd_eq_self_iff.mpr (Text.trim_eq_self_iff.mp h).right

theorem AreCut.map (h : b.AreCut start es) (hg : ∀ e ∈ es, Tidies e (g e)) :
    b.AreCut start (es.map g) := by
  revert hg
  apply h.induction
  case last =>
    intro e he hg
    exact .last ((hg e List.mem_cons_self).isUncut b 0 (Int.le_refl 0) he)
  case cut =>
    intro e es he hr _ hi hg
    have ⟨ht, hg⟩ := List.forall_mem_cons.mp hg
    have htop : (start.run (g e)).isTop := by
      rw [ht.run_eq, hr]
      exact Nesting.isTop_outset
    exact .cut (ht.isUncut b 0 (Int.le_refl 0) he) htop (hi hg)

theorem AreCut.run_intercalate_map (h : b.AreCut start es) (hg : ∀ e ∈ es, Tidies e (g e)) :
    start.run (b.separator.intercalate (es.map g)) = start.run (b.separator.intercalate es) := by
  revert hg
  apply h.induction
  case last =>
    intro e _ hg
    simpa using (hg e List.mem_cons_self).run_eq
  case cut =>
    intro e es _ hr hn hi hg
    have ⟨ht, hg⟩ := List.forall_mem_cons.mp hg
    rw [Text.intercalate_map_cons hn, List.intercalate_cons_of_ne_nil hn]
    simp only [Nesting.run_append, ht.run_eq, hr, Nesting.run_separator, hi hg]

-- The joined text stands between brackets of its own, hence deeper than the top. There an element
-- of it may come back to the top, but the separators do not.
theorem AreCut.isUncut_intercalate_map (h : b.AreCut start es) (hg : ∀ e ∈ es, Tidies e (g e))
    (hd : 0 < d) (hu : b'.IsUncut ⟨false, d⟩ (b.separator.intercalate es)) :
    b'.IsUncut ⟨false, d⟩ (b.separator.intercalate (es.map g)) := by
  revert hg hu
  apply h.induction
  case last =>
    intro e _ hg hu
    rw [List.intercalate_singleton] at hu
    simpa using (hg e List.mem_cons_self).isUncut b' d (Int.le_of_lt hd) hu
  case cut =>
    intro e es _ hr hn hi hg hu
    obtain ⟨ht, hg⟩ := List.forall_mem_cons.mp hg
    have hre : Nesting.run ⟨false, d⟩ e = ⟨false, d⟩ := Nesting.run_of_run_eq_start hr
    rw [List.intercalate_cons_of_ne_nil hn, List.append_assoc] at hu
    obtain ⟨hue, hus⟩ := isUncut_append hu
    have huj := (isUncut_append hus).right
    rw [hre, Nesting.run_separator] at huj
    have hug := ht.isUncut b' d (Int.le_of_lt hd) hue
    have hrg := (Nesting.run_congr ht.run_eq).trans hre
    rw [Text.intercalate_map_cons hn]
    exact hug.append_separator_append hd hrg (hi hg huj) (trimStart_intercalate_map hg)

theorem run_intercalate_elements (hg : ∀ e ∈ b.elements cs, Tidies e (g e)) :
    start.run (b.separator.intercalate ((b.elements cs).map g)) = start.run cs := by
  by_cases hn : cs = []
  case pos =>
    rw [hn]
    rfl
  case neg =>
    rw [elements_of_ne_nil hn] at *
    rw [(b.areCut_pieces start cs).run_intercalate_map hg, intercalate_pieces]

theorem isUncut_intercalate_elements (hg : ∀ e ∈ b.elements cs, Tidies e (g e)) (hd : 0 < d)
    (h : b'.IsUncut ⟨false, d⟩ cs) :
    b'.IsUncut ⟨false, d⟩ (b.separator.intercalate ((b.elements cs).map g)) := by
  by_cases hn : cs = []
  case pos =>
    rw [hn]
    exact isUncut_nil
  case neg =>
    rw [elements_of_ne_nil hn] at *
    refine (b.areCut_pieces start cs).isUncut_intercalate_map hg hd ?_
    rwa [intercalate_pieces]

theorem elements_intercalate_elements (hg : ∀ e ∈ b.elements cs, Tidies e (g e))
    (ht : trim cs = cs) :
    b.elements (trim (b.separator.intercalate ((b.elements cs).map g))) =
      (b.elements cs).map g := by
  by_cases hn : cs = []
  case pos =>
    rw [hn]
    rfl
  case neg =>
    rw [elements_of_ne_nil hn] at *
    have hc := (b.areCut_pieces start cs).map hg
    have hp := pieces_intercalate hc
    have htj : trim (b.separator.intercalate ((b.pieces start cs).map g)) = _ :=
      trim_intercalate_map hg (by rw [intercalate_pieces, ht])
    rw [htj, elements_of_ne_nil, hp]
    -- Nothing is left only of a single blank element, but then the text was blank.
    intro hj
    rw [hj, pieces] at hp
    obtain ⟨e, he, hge⟩ := List.map_eq_singleton_iff.mp hp.symm
    have hce : cs = e := by rw [← intercalate_pieces b start cs, he, List.intercalate_singleton]
    have hte : trim e = [] := (hg e (by simp [he])).eq_nil_iff.mp hge
    exact hn (by rw [← ht, hce, hte])

end Bracket

theorem tidies_trim : Tidies cs (trim cs) where
  trim_eq         := Text.trim_trim
  eq_nil_iff      := Iff.rfl
  run_eq          := Nesting.run_trim
  isUncut _ _ _ h := h.trim

theorem tidies_bracketed (h : trim cs = b.opening :: ds ++ [b.closing])
    (hg : ∀ e ∈ b.elements (trim ds), Tidies e (g e)) :
    Tidies cs
      (b.opening :: b.separator.intercalate ((b.elements (trim ds)).map g) ++ [b.closing]) where
  trim_eq    :=
    Text.trim_cons_append_singleton Bracket.not_isBlank_opening Bracket.not_isBlank_closing
  eq_nil_iff := by simp [h]
  run_eq     := by
    have hj := (Bracket.run_intercalate_elements hg).trans Nesting.run_trim
    have hs : Nesting.start.step b.opening = ⟨false, 0 + 1⟩ := Nesting.step_opening (d := 0)
    have hc : Nesting.start.run (trim cs) = Nesting.start.run cs := Nesting.run_trim
    rw [← hc, h]
    simp only [List.cons_append, Nesting.run_cons, Nesting.run_append, hs, Nesting.run_congr hj]
  isUncut    := by
    intro b' d hd hu
    have ht := hu.trim
    rw [h, List.cons_append, Bracket.isUncut_cons, Nesting.step_opening] at ht
    have hds := (Bracket.isUncut_append ht.right).left
    have hj := Bracket.isUncut_intercalate_elements hg (by omega) hds.trim
    rw [List.cons_append, Bracket.isUncut_cons, Nesting.step_opening]
    refine ⟨fun _ => Bracket.not_prefix_opening, hj.append Bracket.isUncut_closing ?_⟩
    simpa using Bracket.not_isBlank_closing (b := b)

end Switchboard

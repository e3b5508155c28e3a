import Switchboard.Command.Eval
import Switchboard.Proofs.Routes.Keys
import Switchboard.Proofs.Value.Json

namespace Switchboard

namespace Json

def items? : Json → Option (List Json)
  | array xs => some xs
  | _        => none

end Json

namespace Evaluation

def values (xs : List Json) : List Value :=
  (Value.ofItems 0 xs).1

def question? (positional : Bool) (x : Json) : Option Question :=
  if positional then x.items?.map (.arguments ∘ values) else some (.value (value x))

def answer (k : String) (t : Json) (bindings : List Json) : Json :=
  .object
    [("pattern", .text k), ("result", Template.render bindings t), ("bindings", .array bindings)]

inductive Voices (file : Keyed String Json) : Choice Json → Json → Prop
  | route {args : List Value} (ht : file.get? r.key = some t) :
    Voices file (.route r args) (answer r.key t (args.map Value.toJson))
  | unanswered : Voices file .unanswered (.bool false)

-- The line for a node, by the keys of a file and their order. Arguments are all bound, the items of
-- a list are bound where the key has names, and nothing is bound otherwise.
inductive Tells (file : Keyed String Json) : Bool → Json → Json → Prop
  | arguments (hk : Selects file.keys (.arguments (values xs)) k) (ht : file.get? k = some t) :
    Tells file true (.array xs) (answer k t (xs.map Json.narrowed))
  | items {args : List Value} (hk : Selects file.keys (.value (.list (values xs))) k)
    (ht : file.get? k = some t)
    (ha : args.map some =
      ((Pattern.ofString k).places Pattern.isName).map (Value.list (values xs)).at?) :
    Tells file false (.array xs) (answer k t (args.map Value.toJson))
  | whole (hx : x.items? = none) (hk : Selects file.keys (.value (value x)) k)
    (ht : file.get? k = some t) :
    Tells file false x (answer k t [])
  | fallen (hq : question? b x = some q) (hn : ∀ k ∈ file.keys, ¬q.Suits k)
    (hf : fallbackKey? file.keys = some k) (ht : file.get? k = some t) :
    Tells file b x (answer k t [])
  | unanswered (hq : question? b x = some q) (hn : ∀ k ∈ file.keys, ¬q.Suits k)
    (hw : ∀ k ∈ file.keys, ¬Text.spellsWildcard k) :
    Tells file b x (.bool false)

variable {e : Evaluation} {file : Keyed String Json} {rs : Routes Json} {c : Choice Json}
variable {b : Bool} {x y : Json} {xs : List Json} {q : Question} {k : String}

theorem map_toJson_values : (values xs).map Value.toJson = xs.map Json.narrowed := by
  rw [← Value.toItems_eq_map, values, Value.toItems_ofItems, Json.narrowedAll_eq_map]

theorem list?_value : (value x).list? = x.items?.map values := by
  cases x
  case whole i =>
    change (Option.elim _ (Value.float _) Value.int).list? = _
    cases Word.ofInt? i.val <;> rfl
  all_goals rfl

theorem bindings_value (hx : x.items? = none) : (Question.value (value x)).bindings k = [] := by
  have hv : (value x).list? = none := by rw [list?_value, hx, Option.map_none]
  cases h : value x
  case list => simp [h, Value.list?] at hv
  all_goals rfl

theorem line_eq_ok_iff :
    e.line rs x = .ok y ↔
      ∃ q, question? e.positional x = some q ∧ Routes.lineOf (rs.ask q) = y := by
  rw [line, list?_value]
  cases e.positional
  case false => simp [question?, Routes.ask]
  case true  => cases hx : x.items? <;> simp [question?, hx, Routes.ask]

theorem voices_iff (hc : ∀ r args, c = .route r args → file.get? r.key = some r.handler) :
    Voices file c y ↔ Routes.lineOf c = y := by
  constructor
  case mp =>
    intro h
    cases h
    case unanswered       => rfl
    case route t r args ht =>
      cases (hc r args rfl).symm.trans ht
      rfl
  case mpr =>
    rintro rfl
    cases c
    case route r args => exact .route (hc r args rfl)
    case unanswered   => exact .unanswered

theorem Tells.exists_settles (h : Tells file b x y) :
    ∃ q c, question? b x = some q ∧ (Routes.ofList file.entries).Settles q c ∧
      Routes.lineOf c = y := by
  have hr : ∀ {k t}, file.get? k = some t → Route.make k t ∈ (Routes.ofList file.entries).routes :=
    fun ht => Routes.mem_routes_ofList_iff.mpr ht
  have hs := Routes.keys_ofList file
  cases h
  case arguments xs k t hk ht =>
    refine ⟨_, .route (.make k t) (values xs), rfl, .selected (hr ht) (hs ▸ hk) rfl, ?_⟩
    rw [← map_toJson_values]
    rfl
  case items xs k t args hk ht ha =>
    exact ⟨_, .route (.make k t) args, rfl, .selected (hr ht) (hs ▸ hk) ha, rfl⟩
  case whole k t ht hx hk =>
    refine ⟨_, .route (.make k t) [], rfl, .selected (hr ht) (hs ▸ hk) ?_, rfl⟩
    exact (bindings_value hx).symm
  case fallen q k t hn hf ht hq =>
    exact ⟨q, .route (.make k t) [], hq, .fallen (hs ▸ hn) (hr ht) (hs ▸ hf), rfl⟩
  case unanswered q hn hw hq =>
    exact ⟨q, .unanswered, hq, .unanswered (hs ▸ hn) (hs ▸ hw), rfl⟩

theorem tells_of_settles (hq : question? b x = some q)
    (hc : (Routes.ofList file.entries).Settles q c) : Tells file b x (Routes.lineOf c) := by
  have hs := Routes.keys_ofList file
  cases hc
  case fallen r hn hr hf =>
    exact .fallen hq (hs ▸ hn) (hs ▸ hf) (Routes.mem_routes_ofList_iff.mp hr)
  case unanswered hn hw => exact .unanswered hq (hs ▸ hn) (hs ▸ hw)
  case selected r args hr hk ha =>
    have ht := Routes.mem_routes_ofList_iff.mp hr
    rw [hs] at hk
    -- The question is known by now, and with it what is bound.
    cases b
    case true  =>
      have ⟨xs, hx, he⟩ := Option.map_eq_some_iff.mp hq
      cases x <;> cases hx
      cases he
      cases (List.map_inj_right fun _ _ => Option.some.inj).mp ha
      rw [Routes.lineOf, Choice.answer, map_toJson_values]
      exact .arguments hk ht
    case false =>
      cases hq
      cases hx : x.items?
      case none    =>
        rw [bindings_value hx, List.map_eq_nil_iff] at ha
        exact ha ▸ .whole hx hk ht
      case some xs =>
        cases x <;> cases hx
        exact .items hk ht ha

theorem line_eq_ok_iff_tells :
    e.line (.ofList file.entries) x = .ok y ↔ Tells file e.positional x y := by
  rw [line_eq_ok_iff]
  constructor
  case mp =>
    rintro ⟨q, hq, rfl⟩
    exact tells_of_settles hq (Routes.settles_ask _ q)
  case mpr =>
    intro h
    have ⟨q, c, hq, hc, hy⟩ := h.exists_settles
    exact ⟨q, hq, (Routes.settles_ask _ q).unique hc ▸ hy⟩

-- A line says what the file makes of the choice, and what the order of its keys says.
theorem line_exact :
    (e.line (.ofList file.entries) x = .ok y ↔
      ∃ q, question? e.positional x = some q ∧
        Voices file ((Routes.ofList file.entries).ask q) y) ∧
    (e.line (.ofList file.entries) x = .ok y ↔ Tells file e.positional x y) := by
  refine ⟨?_, line_eq_ok_iff_tells⟩
  rw [line_eq_ok_iff]
  refine exists_congr fun q => and_congr_right fun _ => (voices_iff fun r args hc => ?_).symm
  have hs := Routes.settles_ask (.ofList file.entries) q
  exact Routes.mem_routes_ofList_iff.mp (hc ▸ hs).mem

end Evaluation

end Switchboard

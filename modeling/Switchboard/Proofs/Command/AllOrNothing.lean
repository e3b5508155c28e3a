import Switchboard.Proofs.Command.Output

namespace Switchboard

open Command Outcome

namespace Evaluation

variable {σ μ π : Type} (h : Host σ μ π)

inductive Reads (fs : σ) (e : Evaluation) (path : String) : Prop
  | intro (hs : source ∈ e.selection.sources) (he : Selection.Expands h fs source paths)
    (hm : path ∈ paths)

inductive Holds (fs : σ) (e : Evaluation) (document : String) : Prop
  | intro (hr : Reads h fs e path) (hc : h.readText fs path = .ok content)
    (hd : e.selection.Documents content documents) (hm : document ∈ documents)

inductive HasPart (fs : σ) (e : Evaluation) (x : Json) : Prop
  | intro (hd : Holds h fs e document) (hy : h.readers.document document = .ok y)
    (hx : Selection.PointsTo h e.selection y x)

inductive HasNode (fs : σ) (e : Evaluation) (x : Json) : Prop
  | intro (hd : Holds h fs e document) (hy : h.readers.document document = .ok y)
    (hc : Selection.Compiles h e.selection compiled?)
    (hn : Selection.Nodes h e.selection y compiled? nodes) (hx : x ∈ nodes)

-- What may go wrong, on whichever file, document or node.
inductive Stumbles (fs : σ) (e : Evaluation) : Prop
  | patternFileUnread (hc : h.readText fs e.patternFile = .error cause)
  | patternFileInvalid (hc : h.readText fs e.patternFile = .ok content)
    (hm : h.readers.members content = .error m)
  | patternMalformed (hf : HasPatterns h fs e file) (hs : e.strict) (hk : k ∈ file.keys)
    (hm : Pattern.ofStringStrict k = .error m)
  | queryNotParsed (hs : e.selection.query? = some source) (hl : h.load source = .error details)
  | queryUndefined (hs : e.selection.query? = some source) (hl : h.load source = .ok loaded)
    (hc : h.compile loaded = .error unknown)
  | globMalformed (hs : source ∈ e.selection.sources) (hg : Selection.IsGlob source)
    (he : h.glob fs source = .error cause)
  | globEntryUnread (hs : source ∈ e.selection.sources) (hg : Selection.IsGlob source)
    (he : h.glob fs source = .ok entries) (hm : .error cause ∈ entries)
  | globMatchedNothing (hs : source ∈ e.selection.sources) (hg : Selection.IsGlob source)
    (he : h.glob fs source = .ok [])
  | sourceUnread (hr : Reads h fs e path) (hc : h.readText fs path = .error cause)
  | documentInvalid (hd : Holds h fs e document) (hj : h.readers.document document = .error cause)
  | queryFailed (hx : HasPart h fs e x) (hc : Selection.Compiles h e.selection (some q))
    (hm : .error cause ∈ h.outputs q.program x)
  | documentNotPositional (hp : e.positional) (hx : HasNode h fs e x) (hi : x.items? = none)

inductive Places (fs : σ) (path : String) : σ → Prop
  | nowhere (hp : Path.parent? path = none) : Places fs path fs
  | made (hp : Path.parent? path = some dir) (hd : h.createDirAll fs dir = (.ok (), fs')) :
    Places fs path fs'

inductive Saves (fs : σ) (path text : String) : Option Fault → σ → Prop
  | unplaced (hp : Path.parent? path = some dir)
    (hd : h.createDirAll fs dir = (.error cause, fs')) :
    Saves fs path text (some (.outputUnplaced cause)) fs'
  | unwritten (hp : Places h fs path fs') (hw : h.write fs' path text = (.error cause, fs'')) :
    Saves fs path text (some (.outputUnwritten path cause)) fs''
  | written (hp : Places h fs path fs') (hw : h.write fs' path text = (.ok (), fs'')) :
    Saves fs path text none fs''

variable {h} {fs fs' : σ} {e : Evaluation} {file : Keyed String Json} {compiled? : Option (Query π)}
variable {path document content text source : String} {paths : List String} {x y : Json}
variable {ys : List Json} {b : Bool}

theorem exists_tells (hx : b → x.items? ≠ none) : ∃ y, Tells file b x y := by
  have hq : ∃ q, question? b x = some q := by
    cases b
    case false => exact ⟨_, rfl⟩
    case true  =>
      obtain ⟨xs, hx⟩ := Option.ne_none_iff_exists'.mp (hx rfl)
      exact ⟨_, by rw [question?, if_pos rfl, hx, Option.map_some]⟩
  obtain ⟨q, hq⟩ := hq
  exact ⟨_, tells_of_settles hq (Routes.settles_ask _ q)⟩

theorem Tells.items?_ne_none (ht : Tells file true x y) : x.items? ≠ none := by
  have ⟨q, c, hq, _⟩ := ht.exists_settles
  intro hx
  simp [question?, hx] at hq

section

variable (hp : Gathers (Selection.Expands h fs) e.selection.sources paths)
variable (hy : Gathers (AnswersFile h fs e file compiled?) paths ys)
include hp hy

theorem Reads.exists_answersFile (hr : Reads h fs e path) :
    ∃ zs, AnswersFile h fs e file compiled? path zs := by
  have ⟨hs, he, hm⟩ := hr
  have ⟨_, he', hsub⟩ := hp.exists_of_mem hs
  cases he.unique he'
  have ⟨zs, hz, _⟩ := hy.exists_of_mem (hsub _ hm)
  exact ⟨zs, hz⟩

theorem Holds.exists_answersDocument (hd : Holds h fs e document) :
    ∃ zs, AnswersDocument h e file compiled? document zs := by
  have ⟨hr, hc, hd, hm⟩ := hd
  have ⟨_, hc', hd', hz⟩ := hr.exists_answersFile hp hy
  cases hc.symm.trans hc'
  cases hd.unique hd'
  have ⟨zs, hz, _⟩ := hz.exists_of_mem hm
  exact ⟨zs, hz⟩

end

-- Whatever is said to fail has a result already.
theorem Produces.not_stumbles (ho : Produces h fs e text) : ¬Stumbles h fs e := by
  obtain ⟨⟨ht, hf⟩, hs, hc, hp, hy, _⟩ := ho
  intro hn
  cases hn
  case patternFileUnread ht' => cases ht.symm.trans ht'
  case patternFileInvalid ht' hf' =>
    cases ht.symm.trans ht'
    cases hf.symm.trans hf'
  case patternMalformed hf' he hk hm =>
    obtain ⟨ht', hf'⟩ := hf'
    cases ht.symm.trans ht'
    cases hf.symm.trans hf'
    obtain ⟨_, hp⟩ := hs he _ hk
    cases hm.symm.trans hp
  case queryNotParsed hq hl     => cases hc <;> simp_all
  case queryUndefined hq hl hc' => cases hc <;> simp_all
  case globMalformed hs' hg he =>
    obtain ⟨_, hx, _⟩ := hp.exists_of_mem hs'
    cases he.symm.trans (hx.glob_eq hg).left
  case globEntryUnread hs' hg he hm =>
    obtain ⟨_, hx, _⟩ := hp.exists_of_mem hs'
    cases he.symm.trans (hx.glob_eq hg).left
    simp at hm
  case globMatchedNothing hs' hg he =>
    obtain ⟨ps, hx, _⟩ := hp.exists_of_mem hs'
    obtain ⟨hg, hp⟩ := hx.glob_eq hg
    have hn := Except.ok.inj (he.symm.trans hg)
    exact hp (List.map_eq_nil_iff.mp hn.symm)
  case sourceUnread hr hu =>
    obtain ⟨_, ⟨ht, _, _⟩⟩ := hr.exists_answersFile hp hy
    cases hu.symm.trans ht
  case documentInvalid hd hj =>
    obtain ⟨_, ⟨hx, _, _⟩⟩ := hd.exists_answersDocument hp hy
    cases hj.symm.trans hx
  case queryFailed hx hc' hm =>
    obtain ⟨hd, hj, hx⟩ := hx
    obtain ⟨_, ⟨hj', hn, _⟩⟩ := hd.exists_answersDocument hp hy
    cases hj.symm.trans hj'
    cases hc.unique hc'
    simp [hn.outputs_eq hx] at hm
  case documentNotPositional he hx hi =>
    obtain ⟨hd, hj, hc', hn', hm⟩ := hx
    obtain ⟨_, ⟨hj', hn, ht⟩⟩ := hd.exists_answersDocument hp hy
    cases hj.symm.trans hj'
    cases hc.unique hc'
    cases hn.unique hn'
    have ha := forall_mem_of_forall₂ (P := fun x => x.items? ≠ none) ht
      fun h => (he ▸ h).items?_ne_none
    exact ha _ hm hi

theorem exists_nodes (hn : ¬Stumbles h fs e) (hc : Selection.Compiles h e.selection compiled?)
    (hd : Holds h fs e document) (hx : h.readers.document document = .ok x) :
    ∃ nodes, Selection.Nodes h e.selection x compiled? nodes := by
  have ha : ∀ y, Selection.PointsTo h e.selection x y →
      ∃ nodes, Selection.Nodes h e.selection x compiled? nodes := by
    intro y hy
    cases compiled?
    case none   => exact ⟨[y], .part hy⟩
    case some q =>
      have ⟨zs, hz⟩ := exists_eq_map_ok fun _ hm => hn (.queryFailed ⟨hd, hx, hy⟩ hc hm)
      exact ⟨zs, .queried hy hz⟩
  cases hp : e.selection.pointer?
  case none   => exact ha x (.whole hp)
  case some p =>
    cases hy : h.pointer? x p
    case none   => exact ⟨[], .skipped hp hy⟩
    case some y => exact ha y (.part hp hy)

theorem exists_answersDocument (hn : ¬Stumbles h fs e)
    (hc : Selection.Compiles h e.selection compiled?) (hd : Holds h fs e document) :
    ∃ ys, AnswersDocument h e file compiled? document ys := by
  have ⟨x, hx⟩ := exists_eq_ok fun _ hj => hn (.documentInvalid hd hj)
  have ⟨nodes, hm⟩ := exists_nodes hn hc hd hx
  have ⟨ys, hy⟩ : ∃ ys, List.Forall₂ (Tells file e.positional) nodes ys :=
    exists_forall₂_of_forall fun z hz =>
      exists_tells fun hp hi => hn (.documentNotPositional hp ⟨hd, hx, hc, hm, hz⟩ hi)
  exact ⟨ys, hx, hm, hy⟩

theorem exists_answersFile (hn : ¬Stumbles h fs e)
    (hc : Selection.Compiles h e.selection compiled?) (hr : Reads h fs e path) :
    ∃ ys, AnswersFile h fs e file compiled? path ys := by
  have ⟨content, ht⟩ := exists_eq_ok fun _ hu => hn (.sourceUnread hr hu)
  have hd := Selection.documents_eq_iff.mp (Eq.refl (e.selection.documents content))
  have ⟨ys, hy⟩ : ∃ ys, Gathers (AnswersDocument h e file compiled?) _ ys :=
    Gathers.exists_of_forall fun d hm => exists_answersDocument hn hc ⟨hr, ht, hd, hm⟩
  exact ⟨ys, ht, hd, hy⟩

theorem exists_hasPatterns (hn : ¬Stumbles h fs e) : ∃ file, HasPatterns h fs e file := by
  have ⟨content, hc⟩ := exists_eq_ok fun _ hc => hn (.patternFileUnread hc)
  have ⟨⟨file, _⟩, hm⟩ := exists_eq_ok fun _ hm => hn (.patternFileInvalid hc hm)
  exact ⟨file, hc, hm⟩

theorem exists_compiles (hn : ¬Stumbles h fs e) :
    ∃ compiled?, Selection.Compiles h e.selection compiled? := by
  cases hs : e.selection.query?
  case none        => exact ⟨none, .none hs⟩
  case some source =>
    have ⟨loaded, hl⟩ := exists_eq_ok fun _ hl => hn (.queryNotParsed hs hl)
    have ⟨program, hc⟩ := exists_eq_ok fun _ hc => hn (.queryUndefined hs hl hc)
    exact ⟨some ⟨source, program⟩, .some hs hl hc⟩

theorem exists_expands (hn : ¬Stumbles h fs e) (hs : source ∈ e.selection.sources) :
    ∃ ps, Selection.Expands h fs source ps := by
  by_cases hg : Selection.IsGlob source
  case neg => exact ⟨[source], .literal hg⟩
  case pos =>
    have ⟨entries, he⟩ := exists_eq_ok fun _ he => hn (.globMalformed hs hg he)
    obtain ⟨ps, rfl⟩ := exists_eq_map_ok fun _ hm => hn (.globEntryUnread hs hg he hm)
    refine ⟨ps, .glob hg he ?_⟩
    rintro rfl
    exact hn (.globMatchedNothing hs hg he)

theorem exists_output (hn : ¬Stumbles h fs e) : ∃ text, e.output h fs = .ok text := by
  have ⟨file, hf⟩ := exists_hasPatterns hn
  have ⟨compiled?, hc⟩ := exists_compiles hn
  have ⟨paths, hp⟩ := Gathers.exists_of_forall fun _ hs => exists_expands hn hs
  have ⟨ys, hy⟩ : ∃ ys, Gathers (AnswersFile h fs e file compiled?) paths ys := by
    refine Gathers.exists_of_forall fun path hm => ?_
    have ⟨source, hs, ps, he, hm⟩ := hp.exists_mem hm
    exact exists_answersFile hn hc ⟨hs, he, hm⟩
  have hk : e.strict → ∀ k ∈ file.keys, ∃ p, Pattern.ofStringStrict k = .ok p :=
    fun hs k hk => exists_eq_ok fun _ hm => hn (.patternMalformed hf hs hk hm)
  have hl := lines_eq_ok_iff.mpr ⟨file, compiled?, paths, hf, hk, hc, hp, hy⟩
  exact ⟨_, map_eq_ok_iff.mpr ⟨ys, hl, rfl⟩⟩

theorem exists_output_eq_error_iff : (∃ f, e.output h fs = .error f) ↔ Stumbles h fs e := by
  constructor
  case mp =>
    intro ⟨f, hf⟩
    by_contra hn
    have ⟨_, ht⟩ := exists_output hn
    cases hf.symm.trans ht
  case mpr =>
    intro hs
    cases ho : e.output h fs
    case error f => exact ⟨f, rfl⟩
    case ok text => exact absurd hs (output_eq_ok_iff.mp ho).not_stumbles

theorem Tells.unique {z : Json} (hy : Tells file b x y) (hz : Tells file b x z) : y = z := by
  have ⟨q, c, hq, hc, hy⟩ := hy.exists_settles
  have ⟨_, d, hq', hd, hz⟩ := hz.exists_settles
  cases hq.symm.trans hq'
  exact hy.symm.trans (hc.unique hd ▸ hz)

theorem exists_saves_of_places (hp : Places h fs path fs')
    (hs : place h fs path = (.ok (), fs')) :
    ∃ fault? fs'', Saves h fs path text fault? fs'' ∧
      save h fs path text = (fault?.elim (.ok ()) .error, fs'') := by
  obtain ⟨r, fs'', hw⟩ : ∃ r fs'', h.write fs' path text = (r, fs'') := ⟨_, _, rfl⟩
  cases r
  case error => exact ⟨_, fs'', .unwritten hp hw, by simp [save, hs, hw, Except.mapError]⟩
  case ok    => exact ⟨none, fs'', .written hp hw, by simp [save, hs, hw, Except.mapError]⟩

theorem exists_saves (h : Host σ μ π) (fs : σ) (path text : String) :
    ∃ fault? fs', Saves h fs path text fault? fs' ∧
      save h fs path text = (fault?.elim (.ok ()) .error, fs') := by
  cases hp : Path.parent? path
  case none     => exact exists_saves_of_places (.nowhere hp) (by simp [place, hp])
  case some dir =>
    obtain ⟨r, fs', hd⟩ : ∃ r fs', h.createDirAll fs dir = (r, fs') := ⟨_, _, rfl⟩
    have hs : place h fs path = (r.mapError .outputUnplaced, fs') := by simp only [place, hp, hd]
    cases r
    case error => exact ⟨_, fs', .unplaced hp hd, by simp [save, hs, Except.mapError]⟩
    case ok    => exact exists_saves_of_places (.made hp hd) hs

-- How a run of an evaluation ends. Nothing but its node, the file of patterns and whether it is
-- positional makes a difference to a line.
structure AllOrNothing (h : Host σ μ π) (colored : Bool) (fs : σ) (e : Evaluation) : Prop where
  output_eq_ok_iff    : ∀ text, e.output h fs = .ok text ↔ Produces h fs e text
  output_eq_error_iff : (∃ f, e.output h fs = .error f) ↔ Stumbles h fs e
  line_unique         : ∀ file x y z, Tells file e.positional x y → Tells file e.positional x z →
                          y = z
  printed             : ∀ text, Produces h fs e text → e.output? = none →
                          run h colored fs (.eval e) = (⟨text, none⟩, fs)
  saved               : ∀ text path, Produces h fs e text → e.output? = some path →
                          ∃ fault? fs', Saves h fs path text fault? fs' ∧
                            run h colored fs (.eval e) = (⟨"", fault?⟩, fs')
  untouched           : Stumbles h fs e → ∃ f, run h colored fs (.eval e) = (⟨"", some f⟩, fs)

theorem all_or_nothing (h : Host σ μ π) (colored : Bool) (fs : σ) (e : Evaluation) :
    e.AllOrNothing h colored fs where
  output_eq_ok_iff _ := Evaluation.output_eq_ok_iff
  output_eq_error_iff := exists_output_eq_error_iff
  line_unique _ _ _ _ := Tells.unique
  printed text ht ho := by
    have he := Evaluation.output_eq_ok_iff.mpr ht
    simp only [run, evaluated, he, ho, Report.prints]
  saved text path ht ho := by
    have he := Evaluation.output_eq_ok_iff.mpr ht
    have ⟨fault?, fs', hs, hr⟩ := exists_saves h fs path text
    refine ⟨fault?, fs', hs, ?_⟩
    cases fault? <;> simp [run, evaluated, he, ho, hr, Report.prints, Report.fails]
  untouched hs := by
    have ⟨f, hf⟩ := exists_output_eq_error_iff.mpr hs
    exact ⟨f, by simp only [run, evaluated, hf, Report.fails]⟩

end Evaluation

end Switchboard

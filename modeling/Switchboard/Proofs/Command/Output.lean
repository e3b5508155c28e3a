import Switchboard.Command.Run
import Switchboard.Proofs.Command.Line
import Switchboard.Proofs.Gathers
import Switchboard.Proofs.Json.Compact
import Switchboard.Proofs.Json.Readers
import Switchboard.Proofs.Text.Lines

namespace Switchboard

open Command Outcome

variable {σ μ π : Type} (h : Host σ μ π) {fs : σ}

theorem Query.compile_eq_ok_iff {source : String} {q : Query π} :
    Query.compile h source = .ok q ↔
      ∃ loaded, h.load source = .ok loaded ∧ ∃ program, h.compile loaded = .ok program ∧
        ⟨source, program⟩ = q := by
  simp only [Query.compile, bind_eq_ok_iff, mapError_eq_ok_iff, pure_eq_ok_iff]

namespace Selection

def IsGlob (source : String) : Prop :=
  ∃ c ∈ source.toList, c ∈ ['*', '?', '[', '{']

-- The paths that a source leads to: itself, or all entries of a glob, of which there are some.
inductive Expands (fs : σ) (source : String) : List String → Prop
  | literal (hs : ¬IsGlob source) : Expands fs source [source]
  | glob (hs : IsGlob source) (hg : h.glob fs source = .ok (ps.map .ok)) (hp : ps ≠ []) :
    Expands fs source ps

inductive Documents (s : Selection) (content : String) : List String → Prop
  | whole (hs : s.perLine = false) : Documents s content [content]
  | lines (hs : s.perLine = true) (hl : Text.Lines content.toList ls) :
    Documents s content ((ls.filter (!Text.isAllBlank ·)).map String.ofList)

inductive PointsTo (s : Selection) (x : Json) : Json → Prop
  | whole (hs : s.pointer? = none) : PointsTo s x x
  | part (hs : s.pointer? = some p) (hy : h.pointer? x p = some y) : PointsTo s x y

inductive Compiles (s : Selection) : Option (Query π) → Prop
  | none (hs : s.query? = none) : Compiles s none
  | some (hs : s.query? = some source) (hl : h.load source = .ok loaded)
    (hc : h.compile loaded = .ok program) : Compiles s (some ⟨source, program⟩)

inductive Nodes (s : Selection) (x : Json) : Option (Query π) → List Json → Prop
  | skipped (hs : s.pointer? = some p) (hp : h.pointer? x p = none) : Nodes s x compiled? []
  | part (hy : PointsTo h s x y) : Nodes s x none [y]
  | queried (hy : PointsTo h s x y) (hq : h.outputs q.program y = ys.map .ok) :
    Nodes s x (some q) ys

variable {h} {s : Selection} {source content path : String} {ds paths : List String}
variable {compiled? : Option (Query π)} {x y : Json} {ys : List Json}

theorem any_isGlobMark_iff : source.toList.any Text.isGlobMark ↔ IsGlob source := by
  simp [IsGlob, Text.isGlobMark, or_assoc]

theorem pathsOf_eq_ok_iff : pathsOf h fs source = .ok paths ↔ Expands h fs source paths := by
  rw [pathsOf]
  constructor
  case mp =>
    intro hp
    split at hp
    case isFalse hs =>
      cases hp
      exact .literal (any_isGlobMark_iff.not.mp hs)
    case isTrue hs =>
      split at hp
      case h_1 => cases hp
      case h_2 hg =>
        have ⟨ps, hm, hp⟩ := bind_eq_ok_iff.mp hp
        split at hp
        case h_1 => cases hp
        case h_2 hn =>
          cases hp
          exact .glob (any_isGlobMark_iff.mp hs) (mapM_mapError_eq_ok_iff.mp hm ▸ hg) hn
  case mpr =>
    intro he
    cases he
    case literal hs => exact if_neg (any_isGlobMark_iff.not.mpr hs)
    case glob hs hg hp =>
      rw [if_pos (any_isGlobMark_iff.mpr hs), hg]
      refine bind_eq_ok_iff.mpr ⟨_, mapM_mapError_eq_ok_iff.mpr rfl, ?_⟩
      split
      case h_1 => exact absurd rfl hp
      case h_2 => rfl

theorem Expands.unique {paths' : List String} (he : Expands h fs source paths)
    (he' : Expands h fs source paths') : paths = paths' :=
  Except.ok.inj ((pathsOf_eq_ok_iff.mpr he).symm.trans (pathsOf_eq_ok_iff.mpr he'))

theorem Expands.glob_eq (he : Expands h fs source paths) (hs : IsGlob source) :
    h.glob fs source = .ok (paths.map .ok) ∧ paths ≠ [] := by
  cases he
  case literal hs'  => exact absurd hs hs'
  case glob _ hg hp => exact ⟨hg, hp⟩

theorem documents_eq_iff : s.documents content = ds ↔ s.Documents content ds := by
  constructor
  case mp =>
    rintro rfl
    rw [documents]
    split
    case isTrue hs  => exact .lines hs (Text.lines_eq_iff.mp rfl)
    case isFalse hs => exact .whole (by simpa using hs)
  case mpr =>
    intro hd
    cases hd
    case whole hs    => simp [documents, hs]
    case lines hs hl => simp [documents, hs, Text.lines_eq_iff.mpr hl]

theorem compiled_eq_ok_iff : s.compiled h = .ok compiled? ↔ Compiles h s compiled? := by
  constructor
  case mp =>
    intro hc
    rw [compiled] at hc
    split at hc
    case h_1 hs =>
      cases hc
      exact .none hs
    case h_2 hs =>
      obtain ⟨q, hq, rfl⟩ := map_eq_ok_iff.mp (mapError_eq_ok_iff.mp hc)
      obtain ⟨_, hl, _, hp, rfl⟩ := (Query.compile_eq_ok_iff h).mp hq
      exact .some hs hl hp
  case mpr =>
    intro hc
    cases hc
    case none hs => simp [compiled, hs]
    case some hs hl hc =>
      simp only [compiled, hs, mapError_eq_ok_iff, map_eq_ok_iff]
      exact ⟨_, (Query.compile_eq_ok_iff h).mpr ⟨_, hl, _, hc, rfl⟩, rfl⟩

theorem Documents.unique {ds' : List String} (hd : s.Documents content ds)
    (hd' : s.Documents content ds') : ds = ds' :=
  (documents_eq_iff.mpr hd).symm.trans (documents_eq_iff.mpr hd')

theorem Compiles.unique {compiled?' : Option (Query π)} (hc : Compiles h s compiled?)
    (hc' : Compiles h s compiled?') : compiled? = compiled?' :=
  Except.ok.inj ((compiled_eq_ok_iff.mpr hc).symm.trans (compiled_eq_ok_iff.mpr hc'))

theorem pointsTo_iff : PointsTo h s x y ↔ s.pointer?.elim (some x) (h.pointer? x) = some y := by
  constructor
  case mp =>
    intro hp
    cases hp
    case whole hs   => simp [hs]
    case part hs hy => simp [hs, hy]
  case mpr =>
    intro hy
    cases hs : s.pointer?
    case none   =>
      rw [hs] at hy
      cases hy
      exact .whole hs
    case some p =>
      rw [hs] at hy
      exact .part hs hy

theorem PointsTo.unique {z : Json} (hy : PointsTo h s x y) (hz : PointsTo h s x z) : y = z :=
  Option.some.inj ((pointsTo_iff.mp hy).symm.trans (pointsTo_iff.mp hz))

theorem nodes_eq_ok_iff : s.nodes h compiled? path x = .ok ys ↔ Nodes h s x compiled? ys := by
  constructor
  case mp =>
    intro hn
    unfold nodes at hn
    cases hy : s.pointer?.elim (some x) (h.pointer? x)
    case none =>
      rw [hy] at hn
      cases hn
      cases hs : s.pointer?
      case none   => simp [hs] at hy
      case some p =>
        rw [hs] at hy
        exact .skipped hs hy
    case some y =>
      rw [hy] at hn
      have hy := pointsTo_iff.mpr hy
      cases compiled?
      case none   =>
        cases hn
        exact .part hy
      case some q => exact .queried hy (mapM_mapError_eq_ok_iff.mp (mapError_eq_ok_iff.mp hn))
  case mpr =>
    intro hn
    cases hn
    case skipped hs hp => simp [nodes, hs, hp]
    case part hy       => simp [nodes, pointsTo_iff.mp hy]
    case queried hy hq =>
      simp only [nodes, pointsTo_iff.mp hy, mapError_eq_ok_iff]
      exact mapM_mapError_eq_ok_iff.mpr hq

theorem Nodes.unique {ys' : List Json} (hn : Nodes h s x compiled? ys)
    (hn' : Nodes h s x compiled? ys') : ys = ys' := by
  have hp {ys} : s.nodes h compiled? "" x = .ok ys ↔ _ := nodes_eq_ok_iff
  exact Except.ok.inj ((hp.mpr hn).symm.trans (hp.mpr hn'))

theorem Nodes.outputs_eq {q : Query π} (hn : Nodes h s x (some q) ys) (hy : PointsTo h s x y) :
    h.outputs q.program y = ys.map .ok := by
  cases hn
  case skipped hs hp  => simp [pointsTo_iff, hs, hp] at hy
  case queried hy' hq => exact hy'.unique hy ▸ hq

end Selection

namespace Evaluation

-- The file of patterns: an object at the front of its text.
inductive HasPatterns (fs : σ) (e : Evaluation) (file : Keyed String Json) : Prop
  | intro (hc : h.readText fs e.patternFile = .ok content)
    (hm : h.readers.members content = .ok (file, rest))

inductive AnswersDocument (e : Evaluation) (file : Keyed String Json)
    (compiled? : Option (Query π)) (document : String) : List Json → Prop
  | intro (hx : h.readers.document document = .ok x)
    (hn : Selection.Nodes h e.selection x compiled? nodes)
    (hy : List.Forall₂ (Tells file e.positional) nodes ys) :
    AnswersDocument e file compiled? document ys

inductive AnswersFile (fs : σ) (e : Evaluation) (file : Keyed String Json)
    (compiled? : Option (Query π)) (path : String) : List Json → Prop
  | intro (hc : h.readText fs path = .ok content) (hd : e.selection.Documents content documents)
    (hy : Gathers (AnswersDocument h e file compiled?) documents ys) :
    AnswersFile fs e file compiled? path ys

inductive Produces (fs : σ) (e : Evaluation) : String → Prop
  | intro (hf : HasPatterns h fs e file)
    (hs : e.strict → ∀ k ∈ file.keys, ∃ p, Pattern.ofStringStrict k = .ok p)
    (hc : Selection.Compiles h e.selection compiled?)
    (hp : Gathers (Selection.Expands h fs) e.selection.sources paths)
    (hy : Gathers (AnswersFile h fs e file compiled?) paths ys)
    (hn : ∀ y ∈ ys, '\n' ∉ y.compact.toList) :
    Produces fs e (String.join (ys.map (·.compact ++ "\n")))

variable {h} {e : Evaluation} {file : Keyed String Json} {compiled? : Option (Query π)}
variable {path document content text : String} {number : Nat} {ys : List Json} {keys : List String}

theorem templates_eq_ok_iff :
    templates h fs e.patternFile = .ok file ↔ HasPatterns h fs e file := by
  simp only [templates, bind_eq_ok_iff, mapError_eq_ok_iff, Json.ofStringWithPath_eq_ok_iff]
  constructor
  case mp  => exact fun ⟨_, hc, _, hm⟩ => ⟨hc, hm⟩
  case mpr => exact fun ⟨hc, hm⟩ => ⟨_, hc, _, hm⟩

theorem documentLines_eq_ok_iff :
    e.documentLines h (.ofList file.entries) compiled? path document number = .ok ys ↔
      AnswersDocument h e file compiled? document ys := by
  simp only [documentLines, bind_eq_ok_iff, mapError_eq_ok_iff, Selection.nodes_eq_ok_iff,
    mapM_eq_ok_iff, line_eq_ok_iff_tells]
  constructor
  case mp  => exact fun ⟨_, hx, _, hn, hy⟩ => ⟨hx, hn, hy⟩
  case mpr => exact fun ⟨hx, hn, hy⟩ => ⟨_, hx, _, hn, hy⟩

-- The numbers of documents are for faults only.
theorem gathers_zipIdx_iff {documents : List String} :
    Gathers (fun d ys => e.documentLines h (.ofList file.entries) compiled? path d.1 d.2 = .ok ys)
      (documents.zipIdx number) ys ↔
        Gathers (AnswersDocument h e file compiled?) documents ys := by
  simp only [documentLines_eq_ok_iff]
  have hm : Gathers (AnswersDocument h e file compiled?)
      ((documents.zipIdx number).map Prod.fst) ys ↔
      Gathers (fun d => AnswersDocument h e file compiled? d.1) (documents.zipIdx number) ys :=
    Gathers.map_iff
  rw [← hm, List.zipIdx_map_fst]

theorem fileLines_eq_ok_iff :
    e.fileLines h fs (.ofList file.entries) compiled? path = .ok ys ↔
      AnswersFile h fs e file compiled? path ys := by
  rw [fileLines, bind_eq_ok_iff]
  simp only [mapError_eq_ok_iff, flatten_mapM_eq_ok_iff, gathers_zipIdx_iff]
  constructor
  case mp  => exact fun ⟨_, hc, hy⟩ => ⟨hc, Selection.documents_eq_iff.mp rfl, hy⟩
  case mpr =>
    intro ⟨hc, hd, hy⟩
    exact ⟨_, hc, Selection.documents_eq_iff.mpr hd ▸ hy⟩

theorem checkKeys_eq_ok_iff :
    checkKeys path keys = .ok () ↔ ∀ k ∈ keys, ∃ p, Pattern.ofStringStrict k = .ok p := by
  induction keys
  case nil => simp [checkKeys, pure, Except.pure]
  case cons k ks hi =>
    rw [List.forall_mem_cons, ← hi, checkKeys, checkKeys, List.forM_eq_forM, List.forM_cons,
      bind_eq_ok_iff]
    split <;> simp_all

theorem lines_eq_ok_iff :
    e.lines h fs = .ok ys ↔
      ∃ (file : Keyed String Json) (compiled? : Option (Query π)) (paths : List String),
        HasPatterns h fs e file ∧
        (e.strict → ∀ k ∈ file.keys, ∃ p, Pattern.ofStringStrict k = .ok p) ∧
        Selection.Compiles h e.selection compiled? ∧
        Gathers (Selection.Expands h fs) e.selection.sources paths ∧
        Gathers (AnswersFile h fs e file compiled?) paths ys := by
  simp only [lines, Selection.paths, bind_eq_ok_iff, ite_bind_eq_ok_iff, templates_eq_ok_iff,
    checkKeys_eq_ok_iff, Selection.compiled_eq_ok_iff, mapM_eq_ok_iff, pure_eq_ok_iff,
    ← Gathers.iff_forall₂, Selection.pathsOf_eq_ok_iff, fileLines_eq_ok_iff]
  constructor
  case mp  => exact fun ⟨file, hf, hs, c, hc, ps, hp, hy⟩ => ⟨file, c, ps, hf, hs, hc, hp, hy⟩
  case mpr => exact fun ⟨file, c, ps, hf, hs, hc, hp, hy⟩ => ⟨file, hf, hs, c, hc, ps, hp, hy⟩

theorem output_eq_ok_iff : e.output h fs = .ok text ↔ Produces h fs e text := by
  rw [output, map_eq_ok_iff]
  simp only [lines_eq_ok_iff]
  constructor
  case mp =>
    intro ⟨ys, ⟨file, compiled?, paths, hf, hs, hc, hp, hy⟩, ht⟩
    subst ht
    refine .intro hf hs hc hp hy fun y _ => ?_
    rw [Json.compact, String.toList_ofList]
    exact Json.newline_not_mem_chars y
  case mpr =>
    intro ⟨hf, hs, hc, hp, hy, _⟩
    exact ⟨_, ⟨_, _, _, hf, hs, hc, hp, hy⟩, rfl⟩

end Evaluation

end Switchboard

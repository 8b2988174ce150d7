import MessageKeys.Proofs.Traversal

namespace MessageKeys

open Syntax (Node Module)
open Text (Source)

/-- The record with a new label in place of an old one. -/
def Record.relabel (old new : String) (r : Record) : Record :=
  if r.file = old then { r with file := new } else r

namespace Extraction

/-- What is left of a result when one label is replaced by another: the keys have none. -/
def relabel (old new : String) (e : Extraction) : Extraction where
  keys := e.keys
  warnings := e.warnings.map (Record.relabel old new)
  errors := e.errors.map (Record.relabel old new)

def Labelled (label : String) (e : Extraction) : Prop :=
  ∀ r ∈ e.warnings ++ e.errors, r.file = label

variable (src : Source) (old new : String)

/-- Judging a node under another label gives the same result under that label. -/
theorem judge_relabel (e : Extraction) (n : Node) :
    (e.relabel old new).judge src new n = (e.judge src old n).relabel old new := by
  unfold judge
  cases outcome? src n with
  | none => rfl
  | some outcome => cases outcome <;> simp [add, relabel, Record.relabel]

theorem mem_records_add {e : Extraction} {record : String → Reason → Record} {o : Outcome}
    {r : Record} (h : r ∈ (e.add record o).warnings ++ (e.add record o).errors) :
    r ∈ e.warnings ++ e.errors ∨ ∃ key reason, r = record key reason := by
  cases o with
  | accepted key => exact .inl h
  | warned key reason | rejected key reason =>
    simp only [add, List.mem_append, List.mem_singleton] at h ⊢
    tauto

theorem Labelled.judge {label : String} {e : Extraction} (h : e.Labelled label) (n : Node) :
    (e.judge src label n).Labelled label := by
  unfold Extraction.judge
  cases outcome? src n with
  | none => exact h
  | some outcome =>
    intro r hr
    rcases mem_records_add hr with hold | ⟨key, reason, rfl⟩
    · exact h r hold
    · rfl

theorem ofModule_relabel (m : Module) :
    ofModule src new m = (ofModule src old m).relabel old new := by
  rw [ofModule_eq_foldl, ofModule_eq_foldl]
  change m.occurrences.foldl (judge src new) (empty.relabel old new) = _
  exact List.foldl_hom (relabel old new) fun e n => judge_relabel src old new e n

theorem labelled_ofModule (label : String) (m : Module) : (ofModule src label m).Labelled label := by
  rw [ofModule_eq_foldl]
  refine List.foldlRecOn m.occurrences _ ?_ fun e he n _ => he.judge src n
  intro r hr
  cases hr

end Extraction

/-- A text is read as the same module, or refused for the same reason, under every label. -/
theorem parseSource_eq (src : Source) (label : String) :
    parseSource src label = (Module.parse src.chars).mapError fun fault =>
      ⟨label, some (src.lineAt fault.offset), fault.cause.message⟩ := by
  unfold parseSource
  cases Module.parse src.chars <;> rfl

/-- The label of a text is put on its records or on its failure, and changes nothing else: neither
whether the text can be read, nor the module it is read as, nor what is found in it. -/
theorem tryExtract_stamps_label (text old new : String) :
    (∀ m, parseSource (.ofString text) old = .ok m ↔ parseSource (.ofString text) new = .ok m) ∧
    match tryExtract text old, tryExtract text new with
    | .ok e, .ok e' =>
      e'.keys = e.keys ∧ e'.warnings = e.warnings.map (Record.relabel old new) ∧
        e'.errors = e.errors.map (Record.relabel old new) ∧
        ∀ r ∈ e.warnings ++ e.errors, r.file = old
    | .error f, .error f' =>
      f'.line = f.line ∧ f'.message = f.message ∧ f.file = old ∧ f'.file = new
    | _, _ => False := by
  unfold tryExtract
  dsimp only
  rw [parseSource_eq, parseSource_eq]
  cases Module.parse (Source.ofString text).chars with
  | error fault => simp [Except.mapError]
  | ok m =>
    have hrelabel := Extraction.ofModule_relabel (.ofString text) old new m
    refine ⟨fun m' => Iff.rfl, ?_⟩
    simp only [Except.mapError]
    rw [hrelabel]
    exact ⟨rfl, rfl, rfl, Extraction.labelled_ofModule _ old m⟩

end MessageKeys

import Scaffold.Project.Load
import Scaffold.Proofs.Json.Record

/-!
# Project documents are read back

The document of a project is read as that project. What a document leaves out is what the reading
begins with: no camel-cased name, no parents, no widget.
-/

namespace Scaffold

open Json

/-- Every field is read back. -/
theorem Field.reads_toJson (f : Field) : Reads form.read f.toJson f := by
  obtain ⟨name, type, required, inList, component?⟩ := f
  refine RecordForm.Builds.reads ?_
  refine .member rfl (by decide) ((reads_string name).map _) ?_
  refine .member rfl (by decide) ((reads_variant type.word).map _) ?_
  refine .member rfl (by decide) ((reads_bool required).map _) ?_
  refine .member rfl (by decide) ((reads_bool inList).map _) ?_
  cases component? with
  | none =>
    rw [FieldType.ofWord_word]
    exact .done (by decide)
  | some component =>
    refine .member rfl (by decide) ((reads_string component).optional.map _) ?_
    rw [FieldType.ofWord_word]
    exact .done (by decide)

/-- Every entity is read back. -/
theorem Entity.reads_toJson (e : Entity) : Reads form.read e.toJson e := by
  obtain ⟨name, singular, fields, parents⟩ := e
  have hfields : Reads (list Field.form.read) (.array (fields.map Field.toJson)) fields :=
    reads_list fun f _ => f.reads_toJson
  refine RecordForm.Builds.reads ?_
  refine .member rfl (by decide) ((reads_string name).map _) ?_
  refine .member rfl (by decide) ((reads_string singular).map _) ?_
  refine .member rfl (by decide) (hfields.map _) ?_
  cases parents with
  | nil => exact .done (by decide)
  | cons parent parents =>
    have hparents : Reads (list string) (.array ((parent :: parents).map .string))
        (parent :: parents) := reads_list fun parent _ => reads_string parent
    refine .member rfl (by decide) (hparents.map _) ?_
    exact .done (by decide)

theorem Project.reads_data (entities : List Entity) :
    Reads dataForm.read (.object [("objects", .array (entities.map Entity.toJson))]) entities := by
  have hentities : Reads (list Entity.form.read) (.array (entities.map Entity.toJson)) entities :=
    reads_list fun e _ => e.reads_toJson
  refine RecordForm.Builds.reads ?_
  refine .member rfl (by decide) (hentities.map _) ?_
  exact .done (by decide)

/-- Every project is read back. -/
theorem Project.reads_toJson (p : Project) : Reads form.read p.toJson p := by
  obtain ⟨name, camelName?, entities⟩ := p
  have hdata := reads_data entities
  refine RecordForm.Builds.reads ?_
  refine .member rfl (by decide) ((reads_string name).map _) ?_
  cases camelName? with
  | none =>
    refine .member rfl (by decide) (hdata.map _) ?_
    exact .done (by decide)
  | some camelName =>
    refine .member rfl (by decide) ((reads_string camelName).optional.map _) ?_
    refine .member rfl (by decide) (hdata.map _) ?_
    exact .done (by decide)

/-- The text written for a project is read as this project, wherever it comes from. -/
theorem Project.ofText_text (p : Project) (origin : Path) : ofText origin p.text = .ok p := by
  have hparse : parse p.text = .ok p := p.reads_toJson.parse
  rw [ofText, hparse]
  rfl

end Scaffold

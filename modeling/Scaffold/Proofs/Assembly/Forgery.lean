import Scaffold.Assembly.Module
import Scaffold.Proofs.BaseCode.Basic
import Scaffold.Proofs.Fragment.Relation
import Scaffold.Proofs.Template.Forgery
import Scaffold.Proofs.Template.Rendering

/-!
# Tokens left in the files of an entity

A file is looked through for unknown tokens before the names of its entity are put in, and not again
afterwards. The tokens of a finished file are therefore just those that a pass forges and that no
later pass replaces (`Residual.mem_tokenNames_of_resolve`), and the files of an entity are free of
tokens exactly if there are none of these (`Module.tokenNames_eq_nil_iff`).
-/

namespace Scaffold

open Template (Forges)

/-- A text after the passes of some name codes. -/
def NameCode.put (e : Entity) (app : String) (codes : List NameCode) (text : String) : String :=
  codes.foldl (fun text code => replaced code.token (code.value e app) text) text

theorem NameCode.mem_tokenNames_replaced (e : Entity) (app : String) (code : NameCode)
    (text name : String) :
    name ∈ tokenNames (replaced code.token (code.value e app) text) ↔
      (name ∈ tokenNames text ∧ code.name ≠ name) ∨
        Forges code.name.toList (code.value e app).toList text.toList name.toList := by
  rw [mem_tokenNames_iff, mem_tokenNames_iff, replaced, String.toList_ofList, NameCode.token,
    Template.toList_delimited,
    Template.mem_findTokens_replaceAll_iff (Template.isIdentifier_code code), ne_eq, ne_eq,
    String.toList_inj, eq_comm (a := name)]

/-- The tokens after passes: those that were there and are not replaced, and those that a pass
forges and no later one replaces. -/
theorem NameCode.mem_tokenNames_put (e : Entity) (app : String) (codes : List NameCode)
    (text name : String) :
    name ∈ tokenNames (put e app codes text) ↔
      (name ∈ tokenNames text ∧ ∀ c ∈ codes, c.name ≠ name) ∨
        ∃ done code later, codes = done ++ code :: later ∧
          Forges code.name.toList (code.value e app).toList (put e app done text).toList
            name.toList ∧ ∀ c ∈ later, c.name ≠ name := by
  induction codes generalizing text with
  | nil => simp [put]
  | cons c codes ih =>
    have hput (done : List NameCode) :
        put e app (c :: done) text = put e app done (replaced c.token (c.value e app) text) := rfl
    rw [hput, ih, mem_tokenNames_replaced]
    constructor
    · rintro (⟨⟨h, hc⟩ | h, hcodes⟩ | ⟨done, code, later, rfl, h, hlater⟩)
      · exact .inl ⟨h, List.forall_mem_cons.2 ⟨hc, hcodes⟩⟩
      · exact .inr ⟨[], c, codes, rfl, h, hcodes⟩
      · exact .inr ⟨c :: done, code, later, rfl, hput done ▸ h, hlater⟩
    · rintro (⟨h, hcodes⟩ | ⟨done, code, later, heq, h, hlater⟩)
      · exact .inl ⟨.inl ⟨h, hcodes c (by simp)⟩, fun d hd => hcodes d (by simp [hd])⟩
      · cases done with
        | nil =>
          obtain ⟨rfl, rfl⟩ := List.cons.inj heq
          exact .inl ⟨.inr h, hlater⟩
        | cons d done =>
          obtain ⟨rfl, rfl⟩ := List.cons.inj heq
          exact .inr ⟨done, code, later, rfl, hput done ▸ h, hlater⟩

namespace Residual

/-- One of the passes for an entity forges a token that no later pass replaces. -/
def Forges (residual : Residual) (e : Entity) (app name : String) : Prop :=
  ∃ done code later, NameCode.all = done ++ code :: later ∧
    Template.Forges code.name.toList (code.value e app).toList
      (NameCode.put e app done residual.text).toList name.toList ∧
    ∀ c ∈ later, c.name ≠ name

/-- The tokens of a finished file are those that are forged. -/
theorem mem_tokenNames_of_resolve {residual : Residual} {e : Entity} {app content : String}
    {file : ContainedPath} (h : residual.resolve e app file = .ok content) (name : String) :
    name ∈ tokenNames content ↔ residual.Forges e app name := by
  cases hfind : (tokenNames residual.text).find? fun name => (NameCode.ofName? name).isNone with
  | some unknown => simp [resolve, hfind] at h
  | none =>
    have hcontent : content = NameCode.put e app NameCode.all residual.text := by
      simp only [resolve, hfind] at h
      exact (Except.ok.inj h).symm
    rw [hcontent, NameCode.mem_tokenNames_put]
    refine or_iff_right ?_
    intro hleft
    obtain ⟨hmem, hcodes⟩ := hleft
    have hknown := List.find?_eq_none.1 hfind name hmem
    simp only [NameCode.ofName?, Option.isNone_iff_eq_none, List.find?_eq_none,
      beq_iff_eq] at hknown
    exact hknown hcodes

end Residual

namespace Module

/-- The file that a model gives for an entity before the names of the entity are put in. -/
def residual (p : Project) (base : BaseCode) (e : Entity) (model : Model) :
    Except ProjectError Residual := do
  let source ← base.content (.model model)
  (BaseFile.model model).render source (model.filling e (Relations.ofEntity p e))

theorem mem_tokenNames_of_file {p : Project} {base : BaseCode} {e : Entity} {model : Model}
    {f : ModuleFile}
    (h : file base p.camelName e (Relations.ofEntity p e) model = .ok f) :
    ∃ r, residual p base e model = .ok r ∧
      ∀ name, name ∈ tokenNames f.content ↔ r.Forges e p.camelName name := by
  simp only [file, bind_eq_ok_iff] at h
  obtain ⟨path, -, source, hsource, r, hr, content, hcontent, hf⟩ := h
  cases hf
  refine ⟨r, ?_, Residual.mem_tokenNames_of_resolve hcontent⟩
  rw [residual, hsource]
  exact hr

theorem files_of_assemble {p : Project} {policy : RelationPolicy} {base : BaseCode} {e : Entity}
    {m : Module} (h : assemble p policy base e = .ok m) :
    Model.all.mapM (file base p.camelName e (Relations.ofEntity p e)) = .ok m.files := by
  simp only [assemble, bind_eq_ok_iff] at h
  obtain ⟨relations, hrelations, files, hfiles, hm⟩ := h
  cases hm
  cases Relations.eq_ofEntity_of_expand_eq_ok hrelations
  exact hfiles

/-- The files of an entity are free of tokens exactly if no pass over one of them forges a token
that is not replaced by a later one. -/
theorem tokenNames_eq_nil_iff {p : Project} {policy : RelationPolicy} {base : BaseCode} {e : Entity}
    {m : Module} (h : assemble p policy base e = .ok m) :
    (∀ f ∈ m.files, tokenNames f.content = []) ↔
      ∀ model r, residual p base e model = .ok r → ∀ name, ¬ r.Forges e p.camelName name := by
  have hfiles := files_of_assemble h
  constructor
  · intro hnil model r hr name hforges
    have hmodel : model ∈ Model.all := by cases model <;> decide
    obtain ⟨f, hf, hfile⟩ := exists_mem_of_mapM_eq_ok hfiles hmodel
    obtain ⟨r', hr', hiff⟩ := mem_tokenNames_of_file hfile
    obtain rfl : r' = r := Except.ok.inj (hr'.symm.trans hr)
    have hmem := (hiff name).2 hforges
    rw [hnil f hf] at hmem
    simp at hmem
  · intro hnone f hf
    obtain ⟨model, -, hfile⟩ := exists_of_mem_of_mapM_eq_ok hfiles hf
    obtain ⟨r, hr, hiff⟩ := mem_tokenNames_of_file hfile
    refine List.eq_nil_iff_forall_not_mem.2 fun name hmem => ?_
    exact hnone model r hr name ((hiff name).1 hmem)

/-- A singular name that forges nothing. -/
theorem not_forges_of_car :
    ∃ m, assemble ⟨"Garage", none, []⟩ .strict
        (.ofSources fun file => if file = .model .services then "\x7b%object%\x7d" else "")
        ⟨"cars", "car", [], []⟩ = .ok m ∧
      ∀ model r, residual ⟨"Garage", none, []⟩
          (.ofSources fun file => if file = .model .services then "\x7b%object%\x7d" else "")
          ⟨"cars", "car", [], []⟩ model = .ok r →
        ∀ name,
          ¬ r.Forges ⟨"cars", "car", [], []⟩ (Project.camelName ⟨"Garage", none, []⟩) name := by
  obtain ⟨m, hm, hall⟩ := exists_of_any_toOption
    (assemble ⟨"Garage", none, []⟩ .strict
      (.ofSources fun file => if file = .model .services then "\x7b%object%\x7d" else "")
      ⟨"cars", "car", [], []⟩)
    (fun m => m.files.all fun f => (tokenNames f.content).isEmpty)
    (by
      unfold assemble file
      simp only [BaseCode.content_ofSources]
      decide +kernel)
  simp only [List.all_eq_true, List.isEmpty_iff] at hall
  exact ⟨m, hm, (tokenNames_eq_nil_iff hm).1 hall⟩

/-- An entity whose singular name is spelled like a token, in a file that puts it in. -/
theorem tokenNames_ne_nil_of_singular :
    ∃ m, assemble ⟨"Garage", none, [⟨"cars", "\x7b%x%\x7d", [], []⟩]⟩ .permissive
        (.ofSources fun file => if file = .model .services then "\x7b%object%\x7d" else "")
        ⟨"cars", "\x7b%x%\x7d", [], []⟩ = .ok m ∧
      ∃ f ∈ m.files, f.path.text = "app/components/cars/cars.services.js" ∧
        tokenNames f.content = ["x"] := by
  obtain ⟨m, hm, hany⟩ := exists_of_any_toOption
    (assemble ⟨"Garage", none, [⟨"cars", "\x7b%x%\x7d", [], []⟩]⟩ .permissive
      (.ofSources fun file => if file = .model .services then "\x7b%object%\x7d" else "")
      ⟨"cars", "\x7b%x%\x7d", [], []⟩)
    (fun m => m.files.any fun f =>
      f.path.text == "app/components/cars/cars.services.js" && tokenNames f.content == ["x"])
    (by
      unfold assemble file
      simp only [BaseCode.content_ofSources]
      decide +kernel)
  simp only [List.any_eq_true, Bool.and_eq_true, beq_iff_eq] at hany
  exact ⟨m, hm, hany⟩

end Module

end Scaffold

import Scaffold.Fragment.Form
import Scaffold.Proofs.Text.Case
import Scaffold.Proofs.Text.Occurrence

/-!
# Attributes of a form

The input of a field is read as a list of attributes, each with the text that leads to it.
Where nothing in them holds a quote, an attribute is found in the text exactly if it is one
of the list (`Markup.infix_text_iff`), whatever the names in between look like. So the mark
of a required field can be looked up among the attributes that an input is made of
(`Fragment.required_infix_input_iff`).
-/

namespace Scaffold

/-- The spelling of an attribute. -/
def setting (s : String × String) : String := s.1 ++ "=\"" ++ s.2 ++ "\""

/-- An attribute with the text that leads to it. -/
structure Attribute where
  lead : String
  key : String
  value : String

namespace Attribute

def text (a : Attribute) : String := a.lead ++ " " ++ setting (a.key, a.value)

/-- No part of the attribute holds a quote. -/
structure IsQuoteFree (a : Attribute) : Prop where
  lead : '"' ∉ a.lead.toList
  key : '"' ∉ a.key.toList
  value : '"' ∉ a.value.toList

end Attribute

/-- A text with attributes. -/
structure Markup where
  attributes : List Attribute
  ending : String

namespace Markup

open Text (prefix_around_iff infix_around_iff)

def text (m : Markup) : String := String.join (m.attributes.map Attribute.text) ++ m.ending

structure IsQuoteFree (m : Markup) : Prop where
  attributes : ∀ a ∈ m.attributes, a.IsQuoteFree
  ending : '"' ∉ m.ending.toList

/-- A word at the end of a text stands behind its last blank. -/
theorem suffix_append_cons_iff {word a b : List Char} {d : Char} (hd : d ∉ word) :
    word <:+ a ++ d :: b ↔ word <:+ b := by
  have hb : b <:+ a ++ d :: b := ⟨a ++ [d], by simp⟩
  refine ⟨fun h => ?_, fun h => h.trans hb⟩
  rcases List.suffix_or_suffix_of_suffix h (List.suffix_append a (d :: b)) with hs | hs
  · rcases List.suffix_cons_iff.1 hs with rfl | hs
    · exact absurd List.mem_cons_self hd
    · exact hs
  · exact absurd (hs.mem List.mem_cons_self) hd

theorem toList_text_cons (a : Attribute) (as : List Attribute) (ending : String) :
    (Markup.mk (a :: as) ending).text.toList =
      (a.lead ++ " " ++ a.key ++ "=").toList ++
        '"' :: (a.value.toList ++ '"' :: (Markup.mk as ending).text.toList) := by
  simp [text, Attribute.text, setting, String.join_cons]

theorem toList_setting (key value : String) :
    (setting (key, value)).toList = (key ++ "=").toList ++ '"' :: (value.toList ++ ['"']) := by
  simp [setting]

section
variable {key value : String} (hvalue : '"' ∉ value.toList ∧ ' ' ∉ value.toList)
include hvalue

/-- Before the first quote of a text stands a blank, which a word has none of. -/
theorem not_prefix_text {m : Markup} (hm : m.IsQuoteFree) :
    ¬ value.toList ++ ['"'] <+: m.text.toList := by
  obtain ⟨attributes, ending⟩ := m
  intro h
  cases attributes with
  | nil => exact hm.ending (by simpa [text] using h.mem (by simp))
  | cons a as =>
    have ha := hm.attributes a (by simp)
    rw [toList_text_cons, prefix_around_iff hvalue.1 (by simp [ha.lead, ha.key])] at h
    exact hvalue.2 (by simp [h.1])

variable (hkey : '"' ∉ key.toList ∧ ' ' ∉ key.toList)
include hkey

/-- An attribute stands in a text exactly if it is one of those of the text, as far as the end of
its key tells. -/
theorem infix_text_iff {m : Markup} (hm : m.IsQuoteFree) :
    (setting (key, value)).toList <:+: m.text.toList ↔
      ∃ a ∈ m.attributes, key.toList <:+ a.key.toList ∧ a.value = value := by
  obtain ⟨attributes, ending⟩ := m
  have hquote : '"' ∉ (key ++ "=").toList := by simp [hkey.1]
  induction attributes with
  | nil =>
    refine iff_of_false (fun h => hm.ending ?_) (by simp)
    simpa [text] using h.mem (by simp [setting])
  | cons a as ih =>
    have ha := hm.attributes a (by simp)
    have hrest : (Markup.mk as ending).IsQuoteFree :=
      ⟨fun b hb => hm.attributes b (by simp [hb]), hm.ending⟩
    have hopen : '"' ∉ (a.lead ++ " " ++ a.key ++ "=").toList := by simp [ha.lead, ha.key]
    -- the key ends where the first quote stands, and the value reaches from there to the next one
    have hfirst : (key ++ "=").toList <:+ (a.lead ++ " " ++ a.key ++ "=").toList ↔
        key.toList <:+ a.key.toList := by
      simp only [String.toList_append, List.suffix_append_self_iff]
      exact List.append_assoc a.lead.toList .. ▸ suffix_append_cons_iff hkey.2
    rw [toList_text_cons, toList_setting, infix_around_iff hquote hopen,
      prefix_around_iff hvalue.1 ha.value, infix_around_iff hquote ha.value, ← toList_setting, hfirst]
    simp only [ih hrest, not_prefix_text hvalue hrest, List.mem_cons, exists_eq_or_imp, and_false,
      false_or, List.nil_prefix, and_true, eq_comm (a := value.toList), String.toList_inj]

end

end Markup

/-- No string of the field that is put into a fragment holds a quote. -/
structure Field.IsQuoteFree (f : Field) : Prop where
  name : '"' ∉ f.name.toList
  component : ∀ c, f.component? = some c → '"' ∉ c.toList

theorem Field.IsQuoteFree.capitalized {f : Field} (hf : f.IsQuoteFree) :
    '"' ∉ (capitalized f.name).toList := by
  rw [Scaffold.capitalized, String.toList_ofList,
    (Text.recased_capitalize f.name.toList).mem_iff (by decide)]
  exact hf.name

namespace Fragment

/-- The attributes of a tag. -/
def tag (lead : String) : List (String × String) → List Attribute
  | [] => []
  | s :: rest => ⟨lead, s.1, s.2⟩ :: rest.map fun s => ⟨"", s.1, s.2⟩

/-- The attribute that marks a required field. -/
def marks (f : Field) : List (String × String) := if f.required then [("required", "required")] else []

/-- The attribute that lets a field step by hundredths. -/
def steps (f : Field) : List (String × String) := if f.type = .float then [("step", "0.01")] else []

/-- The attributes that bind an input. -/
def bindings (f : Field) : List (String × String) :=
  [("class", "form-control"), ("ng-model", model ++ "." ++ f.name)]

/-- An input with a tag below the label of its field. -/
def labeledMarkup (f : Field) (name : String) (settings : List (String × String)) (ending : String) :
    Markup where
  attributes :=
    [⟨"\t<div", "class", "form-group"⟩, ⟨">\n\t\t<label", "for", f.name⟩] ++
      tag (">" ++ capitalized f.name ++ "</label>\n\t\t<" ++ name) settings
  ending := ending ++ "\t</div>\n\n"

def fileImageMarkup (f : Field) : Markup where
  attributes :=
    [⟨"\t<div", "class", "form-group"⟩, ⟨"", "ng-if", model ++ ".id"⟩,
      ⟨">\n\t\t<label", "for", f.name⟩,
      ⟨">Image</label>\n\t\t<div>\n\t\t\t<img", "ngf-thumbnail",
        "file || vm.config.UploadAddress + '/" ++ NameCode.plural.token ++ "/' + " ++ model ++ "." ++
          f.name ++ ".name"⟩,
      ⟨"", "width", "150"⟩, ⟨">\n\t\t\t<div", "class", "btn btn-default"⟩,
      ⟨"", "ngf-select", "vm.uploadFile($file, '" ++ f.name ++ "')"⟩, ⟨"", "ng-model", "file"⟩,
      ⟨"", "ngf-pattern", "'image/*'"⟩, ⟨"", "ngf-accept", "'image/*'"⟩]
  ending := ">Select Files</div>\n\t\t</div>\n\t</div>\n\n"

/-- The input of a field as markup. -/
def markup? (f : Field) : Option Markup :=
  match f.inputKind with
  | .text => some (labeledMarkup f "input" (marks f ++ [("type", f.inputType)] ++ bindings f) ">\n")
  | .number =>
    some (labeledMarkup f "input" (marks f ++ steps f ++ [("type", "number")] ++ bindings f) ">\n")
  | .textArea => some (labeledMarkup f "textarea" (marks f ++ bindings f) "></textarea>\n")
  | .fileImage => some (fileImageMarkup f)
  | .unknown => none

theorem setting_ne_empty (s : String × String) : setting s ≠ "" := by
  intro h
  simpa [setting] using congrArg String.toList h

theorem spaced_settings (settings : List (String × String)) :
    spaced (settings.map setting) = " ".intercalate (settings.map setting) := by
  rw [spaced, List.filter_eq_self.2]
  intro t ht
  obtain ⟨s, -, rfl⟩ := List.mem_map.1 ht
  simpa using setting_ne_empty s

theorem spaced_settings_append {before behind : List (String × String)} (hbefore : before ≠ [])
    (hbehind : behind ≠ []) :
    spaced ((before ++ behind).map setting) =
      spaced (before.map setting) ++ " " ++ spaced (behind.map setting) := by
  have hbefore : before.map setting ≠ [] := by simpa using hbefore
  have hbehind : behind.map setting ≠ [] := by simpa using hbehind
  rw [spaced_settings, spaced_settings, spaced_settings, List.map_append,
    String.intercalate_append_of_ne_nil hbefore hbehind]

theorem join_tag (lead : String) {settings : List (String × String)} (h : settings ≠ []) :
    String.join ((tag lead settings).map Attribute.text) =
      lead ++ " " ++ spaced (settings.map setting) := by
  rw [spaced_settings]
  induction settings generalizing lead with
  | nil => exact absurd rfl h
  | cons s rest ih =>
    cases rest with
    | nil => simp [tag, Attribute.text, String.join_cons]
    | cons t rest =>
      have hrest : tag "" (t :: rest) = (t :: rest).map fun s => ⟨"", s.1, s.2⟩ := rfl
      rw [tag, ← hrest, List.map_cons, String.join_cons, ih "" (by simp)]
      simp only [Attribute.text, List.map_cons, String.intercalate_cons_cons, String.append_assoc,
        String.empty_append]

/-- A part that is left out where it is empty, among parts that are there. -/
theorem spaced_optional {p : Prop} [Decidable p] (s : String × String)
    (before : List (String × String)) (parts : List String) :
    spaced (before.map setting ++ (if p then setting s else "") :: parts) =
      spaced ((before ++ if p then [s] else []).map setting ++ parts) := by
  split <;> simp [spaced, setting_ne_empty]

theorem text_labeledMarkup (f : Field) (name : String) {settings : List (String × String)}
    (h : settings ≠ []) (ending : String) :
    (labeledMarkup f name settings ending).text =
      labeled f ("\t\t<" ++ name ++ " " ++ spaced (settings.map setting) ++ ending) := by
  have hgroup : "\t<div class=\"form-group\">\n" =
    "\t<div" ++ " " ++ setting ("class", "form-group") ++ ">\n" := rfl
  have hlabel : "\t\t<label for=\"" = "\t\t<label" ++ " " ++ "for" ++ "=\"" := rfl
  have hlead : ">\n\t\t<label" = ">\n" ++ "\t\t<label" := rfl
  have hinput : "</label>\n\t\t<" = "</label>\n" ++ "\t\t<" := rfl
  have hclose : "\">" = "\"" ++ ">" := rfl
  unfold labeledMarkup Markup.text labeled
  simp only [List.map_append, String.join_append, join_tag _ h, hgroup, hlabel, hclose, hlead, hinput]
  simp only [List.map_cons, List.map_nil, String.join_cons, String.join_nil, Attribute.text, setting,
    String.append_assoc, String.empty_append]

theorem inputTag_eq (f : Field) {settings : List (String × String)} (h : settings ≠ [])
    {parts : List String} (hparts : spaced parts = spaced (settings.map setting)) :
    inputTag f parts =
      "\t\t<" ++ "input" ++ " " ++ spaced ((settings ++ bindings f).map setting) ++ ">\n" := by
  have hinput : "\t\t<input " = "\t\t<" ++ "input" ++ " " := rfl
  have hclass : " class=\"form-control\" ng-model=\"" =
    " " ++ setting ("class", "form-control") ++ " " ++ "ng-model" ++ "=\"" := rfl
  have hclose : "\">\n" = "\"" ++ ">\n" := rfl
  unfold inputTag
  rw [hparts, spaced_settings_append h (by simp [bindings]), spaced_settings (bindings f)]
  simp only [hinput, hclass, hclose]
  simp only [bindings, List.map_cons, List.map_nil, String.intercalate_cons_cons,
    String.intercalate_singleton, setting, String.append_assoc]

theorem textInput_eq (f : Field) :
    textInput f =
      (labeledMarkup f "input" (marks f ++ [("type", f.inputType)] ++ bindings f) ">\n").text := by
  have hparts : spaced [requiredMark f, setting ("type", f.inputType)] =
      spaced ((marks f ++ [("type", f.inputType)]).map setting) := by
    rw [List.map_append]
    exact spaced_optional ("required", "required") [] _
  rw [text_labeledMarkup f _ (by simp), ← inputTag_eq f (by simp) hparts]
  rfl

theorem numberInput_eq (f : Field) :
    numberInput f = (labeledMarkup f "input"
      (marks f ++ steps f ++ [("type", "number")] ++ bindings f) ">\n").text := by
  have hparts : spaced [requiredMark f, if f.type = .float then setting ("step", "0.01") else "",
      setting ("type", "number")] =
      spaced ((marks f ++ steps f ++ [("type", "number")]).map setting) := by
    have hmark := spaced_optional (p := f.required) ("required", "required") []
      [if f.type = .float then setting ("step", "0.01") else "", setting ("type", "number")]
    rw [List.map_append, ← List.map_singleton]
    exact hmark.trans (spaced_optional ("step", "0.01") (marks f) _)
  rw [text_labeledMarkup f _ (by simp), ← inputTag_eq f (by simp) hparts]
  rfl

theorem textAreaInput_eq (f : Field) :
    textAreaInput f =
      (labeledMarkup f "textarea" (marks f ++ bindings f) "></textarea>\n").text := by
  have hparts : spaced [requiredMark f, setting ("class", "form-control")] =
      spaced ((marks f ++ [("class", "form-control")]).map setting) := by
    rw [List.map_append]
    exact spaced_optional ("required", "required") [] _
  have hbindings : marks f ++ bindings f =
      (marks f ++ [("class", "form-control")]) ++ [("ng-model", model ++ "." ++ f.name)] := by
    rw [List.append_assoc]
    rfl
  have htag : "\t\t<textarea " = "\t\t<" ++ "textarea" ++ " " := rfl
  have hmodel : " ng-model=\"" = " " ++ "ng-model" ++ "=\"" := rfl
  have hclose : "\"></textarea>\n" = "\"" ++ "></textarea>\n" := rfl
  have hclass : "class=\"form-control\"" = setting ("class", "form-control") := rfl
  rw [text_labeledMarkup f _ (by simp [bindings]), hbindings, spaced_settings_append (by simp) (by simp),
    ← hparts, spaced_settings [_]]
  unfold textAreaInput
  simp only [htag, hmodel, hclose, hclass]
  simp only [List.map_cons, List.map_nil, String.intercalate_singleton, setting, String.append_assoc]

theorem fileImageInput_eq (f : Field) : fileImageInput f = (fileImageMarkup f).text := by
  have hgroup : "\t<div class=\"form-group\" ng-if=\"" =
    "\t<div" ++ " " ++ setting ("class", "form-group") ++ " " ++ "ng-if" ++ "=\"" := rfl
  have hid : ".id\">\n" = ".id" ++ "\"" ++ ">\n" := rfl
  have hlabel : "\t\t<label for=\"" = "\t\t<label" ++ " " ++ "for" ++ "=\"" := rfl
  have himage : "\">Image</label>\n" = "\"" ++ ">Image</label>\n" := rfl
  have hpreview : "\t\t\t<img ngf-thumbnail=\"file || vm.config.UploadAddress + '/" =
    "\t\t\t<img" ++ " " ++ "ngf-thumbnail" ++ "=\"" ++
      "file || vm.config.UploadAddress + '/" := rfl
  have hwidth : ".name\" width=\"150\">\n" =
    ".name" ++ "\"" ++ " " ++ setting ("width", "150") ++ ">\n" := rfl
  have hselect : "\t\t\t<div class=\"btn btn-default\" ngf-select=\"vm.uploadFile($file, '" =
    "\t\t\t<div" ++ " " ++ setting ("class", "btn btn-default") ++ " " ++ "ngf-select" ++ "=\"" ++
      "vm.uploadFile($file, '" := rfl
  have haccept :
      "')\" ng-model=\"file\" ngf-pattern=\"'image/*'\" ngf-accept=\"'image/*'\">Select Files</div>\n" =
    "')" ++ "\"" ++ " " ++ setting ("ng-model", "file") ++ " " ++ setting ("ngf-pattern", "'image/*'") ++
      " " ++ setting ("ngf-accept", "'image/*'") ++ ">Select Files</div>\n" := rfl
  have hlead : ">\n\t\t<label" = ">\n" ++ "\t\t<label" := rfl
  have hinner : ">Image</label>\n\t\t<div>\n\t\t\t<img" =
    ">Image</label>\n" ++ "\t\t<div>\n" ++ "\t\t\t<img" := rfl
  have hbutton : ">\n\t\t\t<div" = ">\n" ++ "\t\t\t<div" := rfl
  have hend : ">Select Files</div>\n\t\t</div>\n\t</div>\n\n" =
    ">Select Files</div>\n" ++ "\t\t</div>\n" ++ "\t</div>\n\n" := rfl
  unfold fileImageInput fileImageMarkup Markup.text
  simp only [hgroup, hid, hlabel, himage, hpreview, hwidth, hselect, haccept, hlead, hinner, hbutton,
    hend]
  simp only [List.map_cons, List.map_nil, String.join_cons, String.join_nil, Attribute.text, setting,
    String.append_assoc, String.empty_append, String.append_empty]

/-- The input of a field is the text of its markup. -/
theorem input?_eq (f : Field) : input? f = (markup? f).map Markup.text := by
  unfold input? markup?
  cases f.inputKind with
  | text => exact congrArg some (textInput_eq f)
  | number => exact congrArg some (numberInput_eq f)
  | textArea => exact congrArg some (textAreaInput_eq f)
  | fileImage => exact congrArg some (fileImageInput_eq f)
  | unknown => rfl

/-! ### The mark of a required field -/

theorem exists_mem_tag {p : String → String → Prop} (lead : String) (settings : List (String × String)) :
    (∃ a ∈ tag lead settings, p a.key a.value) ↔ ∃ s ∈ settings, p s.1 s.2 := by
  cases settings with
  | nil => simp [tag]
  | cons s rest => simp [tag]

/-- Settings without quotes, none of them a mark. -/
def AreOthers (settings : List (String × String)) : Prop :=
  ∀ s ∈ settings, ('"' ∉ s.1.toList ∧ '"' ∉ s.2.toList) ∧ ¬ "required".toList <:+ s.1.toList

theorem AreOthers.append {before behind : List (String × String)} (hbefore : AreOthers before)
    (hbehind : AreOthers behind) : AreOthers (before ++ behind) :=
  fun s hs => (List.mem_append.1 hs).elim (hbefore s) (hbehind s)

theorem areOthers_single {key value : String}
    (hkey : '"' ∉ key.toList ∧ ¬ "required".toList <:+ key.toList) (hvalue : '"' ∉ value.toList) :
    AreOthers [(key, value)] := by
  intro s hs
  obtain rfl := List.mem_singleton.1 hs
  exact ⟨⟨hkey.1, hvalue⟩, hkey.2⟩

theorem areOthers_steps (f : Field) : AreOthers (steps f) := by
  rw [steps]
  split
  · exact areOthers_single (by decide) (by decide)
  · simp [AreOthers]

section
variable {f : Field} (hf : f.IsQuoteFree)
include hf

theorem isQuoteFree_labeledMarkup {name ending : String} {settings : List (String × String)}
    (hname : '"' ∉ name.toList) (hsettings : ∀ s ∈ settings, '"' ∉ s.1.toList ∧ '"' ∉ s.2.toList)
    (hending : '"' ∉ ending.toList) : (labeledMarkup f name settings ending).IsQuoteFree := by
  have hlead : '"' ∉ (">" ++ capitalized f.name ++ "</label>\n\t\t<" ++ name).toList := by
    simp [hname, hf.capitalized]
  refine ⟨fun a ha => ?_, by simp [labeledMarkup, hending]⟩
  rcases List.mem_append.1 ha with ha | ha
  · rcases List.mem_pair.1 ha with rfl | rfl
    · exact ⟨by decide, by decide, by decide⟩
    · exact ⟨by simp, by simp, hf.name⟩
  · cases settings with
    | nil => simp [tag] at ha
    | cons s rest =>
      rcases List.mem_cons.1 ha with rfl | ha
      · exact ⟨hlead, (hsettings s (by simp)).1, (hsettings s (by simp)).2⟩
      · obtain ⟨t, ht, rfl⟩ := List.mem_map.1 ha
        exact ⟨by simp, (hsettings t (by simp [ht])).1, (hsettings t (by simp [ht])).2⟩

/-- Below a label the mark stands exactly if the field is required. -/
theorem infix_labeledMarkup_iff {name ending : String} {settings : List (String × String)}
    (hname : '"' ∉ name.toList) (hsettings : AreOthers settings) (hending : '"' ∉ ending.toList) :
    (setting ("required", "required")).toList <:+:
      (labeledMarkup f name (marks f ++ settings) ending).text.toList ↔ f.required := by
  have hmarks : ∀ s ∈ marks f, s = ("required", "required") := by
    intro s hs
    rw [marks] at hs
    split at hs <;> simp_all
  have hfree : (labeledMarkup f name (marks f ++ settings) ending).IsQuoteFree := by
    refine isQuoteFree_labeledMarkup hf hname (fun s hs => ?_) hending
    rcases List.mem_append.1 hs with hs | hs
    · rw [hmarks s hs]
      decide
    · exact (hsettings s hs).1
  have hlabel : ¬ "required".toList <:+ "class".toList ∧ ¬ "required".toList <:+ "for".toList := by decide
  rw [Markup.infix_text_iff (by decide) (by decide) hfree]
  have htag := exists_mem_tag
    (p := fun key value => "required".toList <:+ key.toList ∧ value = "required")
    (">" ++ capitalized f.name ++ "</label>\n\t\t<" ++ name) (marks f ++ settings)
  constructor
  · rintro ⟨a, ha, hkey, hvalue⟩
    rcases List.mem_append.1 ha with ha | ha
    · rcases List.mem_pair.1 ha with rfl | rfl
      · exact absurd hkey hlabel.1
      · exact absurd hkey hlabel.2
    · obtain ⟨s, hs, hkey, -⟩ := htag.1 ⟨a, ha, hkey, hvalue⟩
      rcases List.mem_append.1 hs with hs | hs
      · rw [marks] at hs
        split at hs
        · assumption
        · simp at hs
      · exact absurd hkey (hsettings s hs).2
  · intro hrequired
    have hmark : ("required", "required") ∈ marks f ++ settings := by simp [marks, hrequired]
    obtain ⟨a, ha, hkey, hvalue⟩ := htag.2 ⟨_, hmark, List.suffix_rfl, rfl⟩
    exact ⟨a, List.mem_append_right _ ha, hkey, hvalue⟩

theorem areOthers_bindings : AreOthers (bindings f) := by
  have hmodel : '"' ∉ (model ++ "." ++ f.name).toList := by
    rw [String.toList_append, List.mem_append, not_or]
    exact ⟨by decide, hf.name⟩
  exact (areOthers_single (by decide) (by decide)).append (areOthers_single (by decide) hmodel)

theorem not_mem_inputType : '"' ∉ f.inputType.toList := by
  simp only [Field.inputType]
  split
  · exact hf.component _ ‹_›
  · split <;> decide

theorem isQuoteFree_fileImageMarkup : (fileImageMarkup f).IsQuoteFree := by
  have hmodel : '"' ∉ model.toList := by decide
  have hplural : '"' ∉ NameCode.plural.token.toList := by decide
  refine ⟨fun a ha => ?_, by simp [fileImageMarkup]⟩
  simp only [fileImageMarkup, List.mem_cons, List.not_mem_nil, or_false] at ha
  rcases ha with rfl | rfl | rfl | rfl | rfl | rfl | rfl | rfl | rfl | rfl <;>
    constructor <;> simp [hf.name, hmodel, hplural]

/-- The input for a picture has no mark. -/
theorem not_infix_fileImageMarkup :
    ¬ (setting ("required", "required")).toList <:+: (fileImageMarkup f).text.toList := by
  have hkeys : (fileImageMarkup f).attributes.map (·.key) =
    ["class", "ng-if", "for", "ngf-thumbnail", "width", "class", "ngf-select", "ng-model", "ngf-pattern",
      "ngf-accept"] := rfl
  have hothers : ∀ key ∈ (fileImageMarkup f).attributes.map (·.key),
      ¬ "required".toList <:+ key.toList := by
    rw [hkeys]
    decide
  rw [Markup.infix_text_iff (by decide) (by decide) (isQuoteFree_fileImageMarkup hf)]
  rintro ⟨a, ha, hkey, -⟩
  exact hothers _ (List.mem_map_of_mem ha) hkey

end

/-- The fragment of a field holds the mark of a required field exactly if the field is one, and its
input is none that a picture is uploaded with. -/
theorem required_infix_input_iff {f : Field} (hf : f.IsQuoteFree) {fragment : String}
    (h : input? f = some fragment) :
    "required=\"required\"".toList <:+: fragment.toList ↔
      f.required = true ∧ f.inputKind ≠ .fileImage := by
  have hmark : "required=\"required\"" = setting ("required", "required") := rfl
  rw [hmark]
  rw [input?_eq, markup?] at h
  have hbindings := areOthers_bindings hf
  cases hkind : f.inputKind with
  | text =>
    have htype : AreOthers [("type", f.inputType)] :=
      areOthers_single (by decide) (not_mem_inputType hf)
    simp only [hkind, Option.map_some, Option.some.injEq] at h
    rw [← h, List.append_assoc,
      infix_labeledMarkup_iff hf (by decide) (htype.append hbindings) (by decide)]
    simp
  | number =>
    have htype : AreOthers [("type", "number")] := areOthers_single (by decide) (by decide)
    simp only [hkind, Option.map_some, Option.some.injEq] at h
    rw [← h, List.append_assoc, List.append_assoc, infix_labeledMarkup_iff hf (by decide)
      ((areOthers_steps f).append (htype.append hbindings)) (by decide)]
    simp
  | textArea =>
    simp only [hkind, Option.map_some, Option.some.injEq] at h
    rw [← h, infix_labeledMarkup_iff hf (by decide) hbindings (by decide)]
    simp
  | fileImage =>
    simp only [hkind, Option.map_some, Option.some.injEq] at h
    rw [← h]
    simpa using not_infix_fileImageMarkup hf
  | unknown => simp [hkind] at h

/-- Fields whose name looks like the beginning of a mark, one of them required. -/
theorem required_infix_input_of_numbers :
    let price : Field := ⟨"price required=", .float, true, false, none⟩
    let count : Field := ⟨"price required=", .integer, false, false, none⟩
    ∃ priced counted, input? price = some priced ∧ input? count = some counted ∧
      "required=\"required\"".toList <:+: priced.toList ∧
      ¬ "required=\"required\"".toList <:+: counted.toList := by
  intro price count
  have hprice : price.IsQuoteFree := ⟨by decide, by simp [price]⟩
  have hcount : count.IsQuoteFree := ⟨by decide, by simp [count]⟩
  refine ⟨_, _, rfl, rfl, ?_, ?_⟩
  · exact (required_infix_input_iff hprice rfl).2 ⟨rfl, by decide⟩
  · rw [required_infix_input_iff hcount rfl]
    decide

/-- A required picture is not marked. -/
theorem exists_required_not_infix_input : ∃ f : Field, f.IsQuoteFree ∧ f.required = true ∧
    ∃ fragment, input? f = some fragment ∧
      ¬ "required=\"required\"".toList <:+: fragment.toList := by
  have hphoto : Field.IsQuoteFree ⟨"photo", .fileImage, true, false, none⟩ := ⟨by decide, by simp⟩
  refine ⟨_, hphoto, rfl, _, rfl, ?_⟩
  have hmark : "required=\"required\"" = setting ("required", "required") := rfl
  rw [hmark, fileImageInput_eq]
  exact not_infix_fileImageMarkup hphoto

end Fragment

end Scaffold

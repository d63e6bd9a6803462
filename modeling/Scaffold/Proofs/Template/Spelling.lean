import Scaffold.Proofs.Template.Rendering
import Scaffold.Proofs.Text.Plain

/-!
# Strings that templates spell

`Spells known s` says that the string `s` is a template all of whose tokens are known. Strings put
together from such strings and from plain names are such strings again, and `isTemplate` decides it
for a string that is given.
-/

namespace Scaffold

namespace Template

/-- Whether a text is a template with known tokens; the first `skip` characters belong to a token
already passed. -/
def isTemplate (known : List Char → Bool) : (skip : Nat) → List Char → Bool
  | _, [] => true
  | skip + 1, _ :: text => isTemplate known skip text
  | 0, c :: text =>
    match tokenAtHead? (c :: text) with
    | some name => known name && isTemplate known (name.length + 3) text
    | none =>
      (c != '{' || text.head?.any (· != '%') && (tokenAtHead? text).isNone) &&
        isTemplate known 0 text

/-- The string is a template whose tokens are known. -/
def Spells (known : List Char → Bool) (s : String) : Prop :=
  ∃ t : Template, t.text = s ∧ ∀ name ∈ t.names, known name

variable {known : List Char → Bool}

theorem isTemplate_eq_drop (skip : Nat) (text : List Char) :
    isTemplate known skip text = isTemplate known 0 (text.drop skip) := by
  induction skip generalizing text with
  | zero => rfl
  | succ skip ih =>
    cases text with
    | nil => cases skip <;> rfl
    | cons c text => exact ih text

theorem IsLiteral.cons {c : Char} {text : List Char} (h : IsLiteral text)
    (hc : c = '{' → ∃ d rest, text = d :: rest ∧ d ≠ '%') : IsLiteral (c :: text) := by
  refine ⟨fun ho => ?_, fun hl => ?_⟩
  · rcases List.infix_cons_iff.1 ho with hp | ho
    · simp only [opening, List.cons_prefix_cons] at hp
      obtain ⟨rfl, hp⟩ := hp
      obtain ⟨d, rest, rfl, hd⟩ := hc rfl
      rw [List.cons_prefix_cons] at hp
      exact hd hp.1.symm
    · exact h.1 ho
  · cases text with
    | nil =>
      obtain ⟨d, rest, hnil, -⟩ := hc (by simpa using hl)
      simp at hnil
    | cons d text => exact h.2 (by simpa [List.getLast?_cons] using hl)

theorem IsLiteral.append {a b : List Char} (ha : IsLiteral a) (hb : IsLiteral b) :
    IsLiteral (a ++ b) := by
  induction a with
  | nil => exact hb
  | cons c a ih =>
    refine (ih ha.tail).cons fun hc => ?_
    cases a with
    | nil => exact absurd (by simp [hc]) ha.2
    | cons d a =>
      refine ⟨d, a ++ b, rfl, fun hd => ha.1 ⟨[], a, ?_⟩⟩
      simp [opening, hc, hd]

/-- A text that passes the check begins with a literal, which is empty only before a token or at
the end, and goes on as a template. -/
theorem exists_of_isTemplate {text : List Char} (h : isTemplate known 0 text = true) :
    ∃ (l : List Char) (t : Template), IsLiteral l ∧ text = l ++ t.chars ∧
      (∀ name ∈ t.names, known name) ∧ (l = [] → tokenAtHead? text = none → text = []) := by
  induction text using token_induction with
  | nil => exact ⟨[], empty, .nil, rfl, by simp [empty, names], fun _ _ => rfl⟩
  | token name rest hid ih =>
    have hhead := tokenAtHead?_spelled hid rest
    rw [spelled_append_eq_cons] at h hhead
    simp only [isTemplate, hhead, Bool.and_eq_true] at h
    rw [isTemplate_eq_drop, drop_spelled_append] at h
    obtain ⟨l, t, hl, rfl, hknown, -⟩ := ih h.2
    refine ⟨[], (ofToken name hid).append ((ofLiteral l hl).append t), .nil, ?_, ?_, ?_⟩
    · simp
    · simpa using ⟨h.1, hknown⟩
    · intro _ hnone
      rw [tokenAtHead?_spelled hid] at hnone
      simp at hnone
  | char c rest hnone ih =>
    simp only [isTemplate, hnone, Bool.and_eq_true, Bool.or_eq_true, bne_iff_ne, ne_eq,
      Option.isNone_iff_eq_none] at h
    obtain ⟨l, t, hl, hrest, hknown, hempty⟩ := ih h.2
    refine ⟨c :: l, t, hl.cons fun hc => ?_, by simp [hrest], hknown, by simp⟩
    -- behind a brace the literal goes on, as no token begins there and the text has not ended
    rcases h.1 with hne | ⟨hany, hhead⟩
    · exact absurd hc hne
    · cases l with
      | nil => simp [hempty rfl hhead] at hany
      | cons d l =>
        refine ⟨d, l, rfl, fun hd => ?_⟩
        simp [hrest, hd] at hany

namespace Spells

/-- A string that passes the check is spelled by a template. -/
theorem of_isTemplate {s : String} (h : isTemplate known 0 s.toList = true) : Spells known s := by
  obtain ⟨l, t, hl, hchars, hknown, -⟩ := exists_of_isTemplate h
  refine ⟨(ofLiteral l hl).append t, ?_, by simpa using hknown⟩
  rw [text, chars_append, chars_ofLiteral, ← hchars, String.ofList_toList]

theorem append {s t : String} (hs : Spells known s) (ht : Spells known t) :
    Spells known (s ++ t) := by
  obtain ⟨t, rfl, hs⟩ := hs
  obtain ⟨u, rfl, ht⟩ := ht
  refine ⟨t.append u, text_append t u, fun name h => ?_⟩
  rw [names_append] at h
  exact (List.mem_append.1 h).elim (hs name) (ht name)

theorem nil : Spells known "" := ⟨empty, rfl, by simp [empty, names]⟩

theorem join {ss : List String} (h : ∀ s ∈ ss, Spells known s) : Spells known (String.join ss) := by
  induction ss with
  | nil => exact nil
  | cons s ss ih =>
    rw [String.join_cons]
    exact (h s (by simp)).append (ih fun r hr => h r (by simp [hr]))

theorem ofLiteral {s : String} (h : IsLiteral s.toList) : Spells known s :=
  ⟨Template.ofLiteral s.toList h, by simp [text], by simp⟩

/-- A plain name is spelled by itself. -/
theorem name {s : String} (h : IsPlainName s) : Spells known s :=
  ofLiteral (.of_brace_not_mem h.brace_not_mem)

theorem token {name : String} (h : isIdentifier name.toList) (hk : known name.toList) :
    Spells known (delimited name) :=
  ⟨ofToken name.toList h, by simp [text, ← toList_delimited], by simpa using hk⟩

/-- A template that may use no tokens has none. -/
theorem exists_closed {s : String} (h : Spells (fun _ => false) s) :
    ∃ t : Template, t.text = s ∧ t.names = [] := by
  obtain ⟨t, ht, hnone⟩ := h
  refine ⟨t, ht, List.eq_nil_iff_forall_not_mem.2 fun name hname => ?_⟩
  exact absurd (hnone name hname) (by simp)

/-- A given string without tokens. -/
theorem literal {cs : List Char} (h : isTemplate (fun _ => false) 0 cs = true) :
    Spells known (String.ofList cs) := by
  obtain ⟨t, ht, hnone⟩ := exists_closed <|
    of_isTemplate (s := String.ofList cs) (by rwa [String.toList_ofList])
  exact ⟨t, ht, by simp [hnone]⟩

theorem andLiteral {s : String} {cs : List Char} (hs : Spells known s)
    (h : isTemplate (fun _ => false) 0 cs = true) : Spells known (s ++ String.ofList cs) :=
  hs.append (literal h)

theorem andName {s name : String} (hs : Spells known s) (h : IsPlainName name) :
    Spells known (s ++ name) :=
  hs.append (.name h)

end Spells

end Template

end Scaffold

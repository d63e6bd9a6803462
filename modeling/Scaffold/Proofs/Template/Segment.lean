import Mathlib.Data.List.Basic
import Scaffold.Proofs.Template.Token

/-!
# Templates in segments

A `Template` is a text that falls into literal stretches and tokens. In its characters a scan meets
its tokens and no others: `findTokens_chars` and `replaceTokens_chars`. To replace the token of one
name by a template is `substitute` at that name (`replaceAll_chars`), and a sequence of such passes
acts on every token by itself (`passes_eq_substitute`): what the first pass of its name puts there,
under the passes that come after.
-/

namespace Scaffold

namespace Template

/-- A stretch in which no token begins, whatever follows it: it holds no opening mark and ends in no
brace. -/
def IsLiteral (text : List Char) : Prop := ¬ opening <:+: text ∧ text.getLast? ≠ some '{'

instance : DecidablePred IsLiteral := fun text =>
  inferInstanceAs (Decidable (¬ opening <:+: text ∧ text.getLast? ≠ some '{'))

/-- A piece of a template. -/
inductive Segment where
  | literal (text : List Char)
  | token (name : List Char)
  deriving DecidableEq, Repr

namespace Segment

/-- The characters that spell a segment. -/
def chars : Segment → List Char
  | literal text => text
  | token name => spelled name

/-- A literal is literal, a token has an identifier for its name. -/
def WellFormed : Segment → Prop
  | literal text => IsLiteral text
  | token name => isIdentifier name

instance : DecidablePred WellFormed
  | literal text => inferInstanceAs (Decidable (IsLiteral text))
  | token name => inferInstanceAs (Decidable (isIdentifier name))

/-- The segment with what `value` gives for a token. -/
def filled (value : List Char → List Char) : Segment → List Char
  | literal text => text
  | token name => value name

/-- The name of a token. -/
def name? : Segment → Option (List Char)
  | literal _ => none
  | token name => some name

end Segment

end Template

/-- A text in segments. -/
structure Template where
  segments : List Template.Segment
  wellFormed : ∀ s ∈ segments, s.WellFormed

namespace Template

open Text (replaceTokens replaceAll)

/-! ### Literals -/

theorem IsLiteral.nil : IsLiteral [] := by simp [IsLiteral, opening]

theorem IsLiteral.tail {c : Char} {text : List Char} (h : IsLiteral (c :: text)) :
    IsLiteral text := by
  refine ⟨fun ho => h.1 (ho.trans (List.suffix_cons c text).isInfix), fun hl => h.2 ?_⟩
  simp [List.getLast?_cons, hl]

theorem IsLiteral.of_append {a b : List Char} (h : IsLiteral (a ++ b)) : IsLiteral b := by
  induction a with
  | nil => exact h
  | cons c a ih => exact ih h.tail

/-- No token begins in a literal. -/
theorem IsLiteral.tokenAtHead?_eq_none {c : Char} {text : List Char} (h : IsLiteral (c :: text))
    (rest : List Char) : tokenAtHead? (c :: (text ++ rest)) = none := by
  rw [Option.eq_none_iff_forall_ne_some]
  intro name hn
  obtain ⟨-, hp⟩ := tokenAtHead?_eq_some_iff.1 hn
  cases text with
  | nil => exact h.2 (by simp [(spelled_prefix_cons_iff.1 hp).1])
  | cons d text =>
    refine h.1 (List.IsPrefix.isInfix ?_)
    simp only [spelled, opening, List.cons_append, List.cons_prefix_cons] at hp
    obtain ⟨rfl, rfl, -⟩ := hp
    exact ⟨text, rfl⟩

theorem IsLiteral.findTokens_append {text : List Char} (h : IsLiteral text) (rest : List Char) :
    findTokens (text ++ rest) = findTokens rest := by
  induction text with
  | nil => rfl
  | cons c text ih =>
    rw [List.cons_append, findTokens_of_none (h.tokenAtHead?_eq_none rest), ih h.tail]

theorem IsLiteral.replaceTokens_append {values : List (List Char × List Char)}
    (hv : ∀ v ∈ values, isIdentifier v.1) {text : List Char} (h : IsLiteral text)
    (rest : List Char) :
    replaceTokens (spelledPairs values) (text ++ rest) =
      text ++ replaceTokens (spelledPairs values) rest := by
  induction text with
  | nil => rfl
  | cons c text ih =>
    rw [List.cons_append,
      replaceTokens_of_tokenAtHead?_eq_none hv (h.tokenAtHead?_eq_none rest), ih h.tail,
      List.cons_append]

/-- A text without braces is literal. -/
theorem IsLiteral.of_brace_not_mem {text : List Char} (h : '{' ∉ text) : IsLiteral text := by
  refine ⟨fun ho => h (ho.subset (by simp [opening])), fun hl => h ?_⟩
  exact List.mem_of_getLast? hl

/-! ### Characters, names and values -/

/-- The characters of a template. -/
def chars (t : Template) : List Char := t.segments.flatMap Segment.chars

/-- A template as a string. -/
def text (t : Template) : String := String.ofList t.chars

/-- The names of the tokens of a template, in order. -/
def names (t : Template) : List (List Char) := t.segments.filterMap Segment.name?

/-- The characters of a template with what `value` gives for its tokens. -/
def filled (value : List Char → List Char) (t : Template) : List Char :=
  t.segments.flatMap (Segment.filled value)

theorem chars_eq_filled (t : Template) : t.chars = t.filled spelled := by
  refine congrArg (List.flatMap · t.segments) (funext fun s => ?_)
  cases s <;> rfl

theorem filled_congr {v w : List Char → List Char} {t : Template}
    (h : ∀ name ∈ t.names, v name = w name) : t.filled v = t.filled w := by
  refine List.flatMap_congr fun s hs => ?_
  cases s with
  | literal text => rfl
  | token name => exact h name (List.mem_filterMap.2 ⟨_, hs, rfl⟩)

/-- The tokens found in a template are its tokens. -/
theorem findTokens_chars (t : Template) : findTokens t.chars = t.names := by
  obtain ⟨segments, h⟩ := t
  simp only [chars, names]
  induction segments with
  | nil => rfl
  | cons s segments ih =>
    have ih := ih fun s hs => h s (by simp [hs])
    have hs := h s (by simp)
    cases s with
    | literal text =>
      exact (IsLiteral.findTokens_append hs _).trans ih
    | token name =>
      rw [List.flatMap_cons, Segment.chars, findTokens_spelled hs, ih]
      rfl

/-- In one pass every token of a template that has a value is replaced. -/
theorem replaceTokens_chars {values : List (List Char × List Char)}
    (hv : ∀ v ∈ values, isIdentifier v.1) (t : Template) :
    replaceTokens (spelledPairs values) t.chars =
      t.filled fun name => (values.lookup name).getD (spelled name) := by
  obtain ⟨segments, h⟩ := t
  simp only [chars, filled]
  induction segments with
  | nil => rfl
  | cons s segments ih =>
    have ih := ih fun s hs => h s (by simp [hs])
    have hs := h s (by simp)
    cases s with
    | literal text =>
      rw [List.flatMap_cons, List.flatMap_cons, Segment.chars, Segment.filled,
        IsLiteral.replaceTokens_append hv hs, ih]
    | token name =>
      rw [List.flatMap_cons, List.flatMap_cons, Segment.chars, Segment.filled,
        replaceTokens_spelled hv hs, ih]

/-! ### Building templates -/

/-- The template without segments. -/
def empty : Template := ⟨[], by simp⟩

/-- A literal as a template. -/
def ofLiteral (text : List Char) (h : IsLiteral text) : Template :=
  ⟨[.literal text], by simpa [Segment.WellFormed] using h⟩

/-- A token as a template. -/
def ofToken (name : List Char) (h : isIdentifier name) : Template :=
  ⟨[.token name], by simpa [Segment.WellFormed] using h⟩

/-- One template behind another. -/
def append (t u : Template) : Template :=
  ⟨t.segments ++ u.segments, fun s hs =>
    (List.mem_append.1 hs).elim (t.wellFormed s) (u.wellFormed s)⟩

@[simp] theorem chars_ofLiteral {text : List Char} (h : IsLiteral text) :
    (ofLiteral text h).chars = text := by simp [ofLiteral, chars, Segment.chars]

@[simp] theorem names_ofLiteral {text : List Char} (h : IsLiteral text) :
    (ofLiteral text h).names = [] := rfl

@[simp] theorem chars_ofToken {name : List Char} (h : isIdentifier name) :
    (ofToken name h).chars = spelled name := by simp [ofToken, chars, Segment.chars]

@[simp] theorem names_ofToken {name : List Char} (h : isIdentifier name) :
    (ofToken name h).names = [name] := rfl

@[simp] theorem chars_append (t u : Template) : (t.append u).chars = t.chars ++ u.chars := by
  simp [append, chars]

theorem text_append (t u : Template) : (t.append u).text = t.text ++ u.text := by
  simp [text, String.ofList_append]

@[simp] theorem names_append (t u : Template) : (t.append u).names = t.names ++ u.names := by
  simp [append, names]

theorem filled_append (value : List Char → List Char) (t u : Template) :
    (t.append u).filled value = t.filled value ++ u.filled value := by
  simp [append, filled]

/-! ### Substitution -/

/-- What a segment becomes where tokens are replaced by templates. -/
def Segment.substitute (f : List Char → Option Template) : Segment → List Segment
  | literal text => [literal text]
  | token name => ((f name).map Template.segments).getD [token name]

/-- The template with tokens replaced by templates; a token for which there is none stays. -/
def substitute (f : List Char → Option Template) (t : Template) : Template where
  segments := t.segments.flatMap (Segment.substitute f)
  wellFormed := by
    intro s hs
    obtain ⟨r, hr, hs⟩ := List.mem_flatMap.1 hs
    have hwf := t.wellFormed r hr
    cases r with
    | literal text => exact List.mem_singleton.1 hs ▸ hwf
    | token name =>
      simp only [Segment.substitute] at hs
      cases hf : f name with
      | none =>
        rw [hf] at hs
        exact List.mem_singleton.1 hs ▸ hwf
      | some u =>
        rw [hf] at hs
        exact u.wellFormed s hs

theorem filled_substitute (f : List Char → Option Template) (v : List Char → List Char)
    (t : Template) :
    (t.substitute f).filled v =
      t.filled fun name => ((f name).map (filled v)).getD (v name) := by
  simp only [substitute, filled, List.flatMap_assoc]
  refine List.flatMap_congr fun s _ => ?_
  cases s with
  | literal text => simp [Segment.substitute, Segment.filled]
  | token name => cases h : f name <;> simp [Segment.substitute, Segment.filled, filled, h]

theorem chars_substitute (f : List Char → Option Template) (t : Template) :
    (t.substitute f).chars = t.filled fun name => ((f name).map chars).getD (spelled name) := by
  rw [chars_eq_filled, filled_substitute, show chars = filled spelled from funext chars_eq_filled]

theorem names_substitute (f : List Char → Option Template) (t : Template) :
    (t.substitute f).names = t.names.flatMap fun name => ((f name).map names).getD [name] := by
  simp only [substitute, names]
  induction t.segments with
  | nil => rfl
  | cons s segments ih =>
    rw [List.flatMap_cons, List.filterMap_append, ih]
    cases s with
    | literal text => rfl
    | token name => cases h : f name <;> simp [Segment.substitute, Segment.name?, names, h]

theorem substitute_congr {f g : List Char → Option Template} {t : Template}
    (h : ∀ name ∈ t.names, f name = g name) : t.substitute f = t.substitute g := by
  simp only [substitute, mk.injEq]
  refine List.flatMap_congr fun s hs => ?_
  cases s with
  | literal text => rfl
  | token name =>
    have hname : name ∈ t.names := List.mem_filterMap.2 ⟨_, hs, rfl⟩
    simp only [Segment.substitute, h name hname]

theorem substitute_none (t : Template) : t.substitute (fun _ => none) = t := by
  have h : Segment.substitute (fun _ => none) = fun s => [s] := by
    funext s
    cases s <;> rfl
  simp only [substitute, h, List.flatMap_singleton']

/-- Two substitutions are one. -/
theorem substitute_substitute (f g : List Char → Option Template) (t : Template) :
    (t.substitute f).substitute g =
      t.substitute fun name => ((f name).map (substitute g)).or (g name) := by
  simp only [substitute, mk.injEq, List.flatMap_assoc]
  refine List.flatMap_congr fun s _ => ?_
  cases s with
  | literal text => simp [Segment.substitute]
  | token name => cases h : f name <;> simp [Segment.substitute, substitute, h]

/-- The substitution for the token of one name. -/
def single (name : List Char) (u : Template) : List Char → Option Template :=
  fun m => if m = name then some u else none

/-- To replace a token in the characters of a template is to substitute for it. -/
theorem replaceAll_chars {name : List Char} (h : isIdentifier name) (t u : Template) :
    replaceAll (spelled name) u.chars t.chars = (t.substitute (single name u)).chars := by
  rw [replaceAll_eq_replaceTokens, replaceTokens_chars (by simpa using h), chars_substitute]
  refine filled_congr fun m _ => ?_
  by_cases hm : m = name
  · simp [single, hm]
  · have hbeq : (m == name) = false := by simpa using hm
    simp [single, hm, List.lookup_cons, hbeq]

/-! ### Passes -/

/-- The template after tokens have been replaced one name after the other. -/
def passes (ps : List (List Char × Template)) (t : Template) : Template :=
  ps.foldl (fun t p => t.substitute (single p.1 p.2)) t

/-- What a sequence of passes makes of a token: the template of the first pass of its name, under
the passes that come after. -/
def passValue : List (List Char × Template) → List Char → Option Template
  | [], _ => none
  | p :: ps, name => if name = p.1 then some (p.2.passes ps) else passValue ps name

/-- A sequence of passes acts on every token by itself. -/
theorem passes_eq_substitute (ps : List (List Char × Template)) (t : Template) :
    t.passes ps = t.substitute (passValue ps) := by
  induction ps generalizing t with
  | nil => exact (substitute_none t).symm
  | cons p ps ih =>
    have hstep : t.passes (p :: ps) = (t.substitute (single p.1 p.2)).passes ps := rfl
    rw [hstep, ih, substitute_substitute]
    refine congrArg (t.substitute ·) (funext fun name => ?_)
    by_cases h : name = p.1 <;> simp [single, passValue, h, ih]

theorem passes_append (ps qs : List (List Char × Template)) (t : Template) :
    t.passes (ps ++ qs) = (t.passes ps).passes qs := List.foldl_append

theorem passValue_eq_none {ps : List (List Char × Template)} {name : List Char}
    (h : name ∉ ps.map Prod.fst) : passValue ps name = none := by
  induction ps with
  | nil => rfl
  | cons p ps ih =>
    simp only [List.map_cons, List.mem_cons, not_or] at h
    rw [passValue, if_neg h.1, ih h.2]

/-- Passes leave a template alone that has none of their names. -/
theorem passes_eq_self {ps : List (List Char × Template)} {t : Template}
    (h : ∀ name ∈ t.names, name ∉ ps.map Prod.fst) : t.passes ps = t := by
  rw [passes_eq_substitute, substitute_congr fun name hn => passValue_eq_none (h name hn),
    substitute_none]

/-- Where no pass writes a token that a pass replaces, the passes are one substitution. -/
theorem passValue_eq_lookup {ps : List (List Char × Template)}
    (h : ∀ p ∈ ps, ∀ name ∈ p.2.names, name ∉ ps.map Prod.fst) (name : List Char) :
    passValue ps name = ps.lookup name := by
  induction ps with
  | nil => rfl
  | cons p ps ih =>
    have hp : p.2.passes ps = p.2 :=
      passes_eq_self fun n hn hmem => h p (by simp) n hn (List.mem_cons_of_mem _ hmem)
    have ih := ih fun q hq n hn hmem =>
      h q (List.mem_cons_of_mem _ hq) n hn (List.mem_cons_of_mem _ hmem)
    obtain ⟨m, u⟩ := p
    by_cases heq : name = m
    · simpa [passValue, List.lookup_cons, heq] using hp
    · have hbeq : (name == m) = false := by simpa using heq
      simpa [passValue, List.lookup_cons, heq, hbeq] using ih

theorem passValue_append (ps qs : List (List Char × Template)) (name : List Char) :
    passValue (ps ++ qs) name = ((passValue ps name).map (passes qs)).or (passValue qs name) := by
  induction ps with
  | nil => rfl
  | cons p ps ih =>
    by_cases heq : name = p.1
    · simp [passValue, heq, passes_append]
    · simp [passValue, heq, ih]

end Template

end Scaffold

import Mathlib.Data.List.Nodup
import Scaffold.Project.Basic

/-!
# Entities looked up by name

A lookup by a key that no two members of a list share finds whatever has the key, and so
does not depend on their order (`find?_key_perm`). For the entities of a project the key is
the name (`Project.entity?_perm`).
-/

namespace Scaffold

section
variable {α κ : Type} [BEq κ] [LawfulBEq κ] {key : α → κ}

theorem find?_key_eq_some_iff {l : List α} (h : (l.map key).Nodup) {k : κ} {a : α} :
    l.find? (fun b => key b == k) = some a ↔ a ∈ l ∧ key a = k := by
  constructor
  · intro hfind
    exact ⟨List.mem_of_find?_eq_some hfind, by simpa using List.find?_some hfind⟩
  · rintro ⟨ha, rfl⟩
    obtain ⟨b, hb⟩ : ∃ b, l.find? (fun b => key b == key a) = some b :=
      Option.isSome_iff_exists.1 (List.find?_isSome.2 ⟨a, ha, by simp⟩)
    have hkey : key b = key a := by simpa using List.find?_some hb
    rw [hb, List.inj_on_of_nodup_map h (List.mem_of_find?_eq_some hb) ha hkey]

theorem find?_key_perm {l m : List α} (h : (l.map key).Nodup) (hperm : l.Perm m) (k : κ) :
    l.find? (fun b => key b == k) = m.find? fun b => key b == k := by
  have hm : (m.map key).Nodup := (hperm.map key).nodup_iff.1 h
  refine Option.ext fun a => ?_
  rw [find?_key_eq_some_iff h, find?_key_eq_some_iff hm, hperm.mem_iff]

end

/-- Two projects look alike to an entity that for each of its parents finds the same singular name
in both, or no declaration in either. -/
def Entity.SeesAlike (e : Entity) (p q : Project) : Prop :=
  ∀ name ∈ e.parents, (p.entity? name).map (·.singular) = (q.entity? name).map (·.singular)

namespace Project

theorem of_entity?_eq_some {p : Project} {name : String} {e : Entity}
    (h : p.entity? name = some e) : e ∈ p.entities ∧ e.name = name :=
  ⟨List.mem_of_find?_eq_some h, by simpa using List.find?_some h⟩

/-- Where entities have names of their own, their order does not matter to a lookup. -/
theorem entity?_perm {p q : Project} (hdistinct : (p.entities.map (·.name)).Nodup)
    (hperm : p.entities.Perm q.entities) (name : String) : p.entity? name = q.entity? name :=
  find?_key_perm hdistinct hperm name

end Project

end Scaffold

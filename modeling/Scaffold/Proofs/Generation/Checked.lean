import Scaffold.Proofs.Assembly.Guards
import Scaffold.Proofs.Generation.Policy

/-!
# Plans of checked projects

A check looks at names and relations; where the files of an entity come to stand and which
tokens its names make is left to the guards of the assembly. A project that passes the
strict check has a plan over the bundled base code exactly if none of these guards stops it
(`exists_plan_of_check_iff_fits`), which the check alone does not tell
(`isRefused_of_up_home_token`).
-/

namespace Scaffold

theorem exists_plan_permissive_iff_fits {p : Project} :
    (∃ a, plan (.ok Bundled.baseCode) p .permissive = .ok a) ↔ p.Fits Bundled.baseCode := by
  rw [exists_plan_permissive_iff]
  exact Bundled.exists_assemble_iff_fits

/-- What passes the strict check is planned exactly if it fits the bundled base code. -/
theorem exists_plan_of_check_iff_fits {p : Project}
    (h : ∀ i ∈ p.check .strict, i.severity ≠ .error) :
    (∃ a, plan (.ok Bundled.baseCode) p .strict = .ok a) ↔ p.Fits Bundled.baseCode := by
  rw [plan_strict_of_check h]
  exact exists_plan_permissive_iff_fits

/-- A garage whose cars belong to makers passes the check and is planned. -/
theorem exists_plan_of_garage :
    let p : Project := ⟨"Garage", none, [⟨"makers", "maker", [⟨"country", .text, true, true, none⟩],
      []⟩, ⟨"cars", "car", [], ["makers"]⟩]⟩
    (∀ i ∈ p.check .strict, i.severity ≠ .error) ∧
      ∃ a, plan (.ok Bundled.baseCode) p .strict = .ok a := by
  intro p
  have hcheck : ∀ i ∈ p.check .strict, i.severity ≠ .error := by decide +kernel
  have hfits : p.Fits Bundled.baseCode :=
    Bundled.fits (by decide +kernel) (by decide) (by decide)
  exact ⟨hcheck, (exists_plan_of_check_iff_fits hcheck).2 hfits⟩

/-- A project that the strict check has nothing against and that cannot be planned. -/
def Project.IsRefused (p : Project) : Prop :=
  (∀ i ∈ p.check .strict, i.severity ≠ .error) ∧
    ¬ ∃ a, plan (.ok Bundled.baseCode) p .strict = .ok a

theorem Project.isRefused_of_not_fits {p : Project} (h : ∀ i ∈ p.check .strict, i.severity ≠ .error)
    (hfits : ¬ p.Fits Bundled.baseCode) : p.IsRefused := by
  refine ⟨h, fun hplan => hfits ?_⟩
  rw [plan_strict_of_check h] at hplan
  exact exists_plan_permissive_iff_fits.1 hplan

/-- Entities that the check has nothing against: one whose name leads upward, one called like the
start page, and one whose name makes a token. -/
theorem isRefused_of_up_home_token :
    Project.IsRefused ⟨"Garage", none, [⟨"../../../escaped", "car", [], []⟩]⟩ ∧
      Project.IsRefused ⟨"Garage", none, [⟨"home", "page", [], []⟩]⟩ ∧
      Project.IsRefused ⟨"Garage", none, [⟨"\x7b%cars%\x7d", "car", [], []⟩]⟩ := by
  refine ⟨?up, ?home, ?token⟩
  case up =>
    refine Project.isRefused_of_not_fits (by decide +kernel) fun hfits => ?_
    exact hfits.contained _ (List.mem_singleton.2 rfl) (by decide +kernel)
  case home =>
    exact Project.isRefused_of_not_fits (by decide +kernel)
      (Bundled.not_fits_of_home (List.mem_singleton.2 rfl) rfl)
  case token =>
    refine Project.isRefused_of_not_fits (by decide +kernel) ?_
    apply Bundled.not_fits_of_findTokens .sidebar
    · repeat apply Bundled.toList_append_ofList
      exact String.toList_ofList
    · decide +kernel

end Scaffold

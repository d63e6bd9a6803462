import Scaffold.Proofs.Generation.Run
import Scaffold.Proofs.Store.Exchange

/-!
# What a run exchanges with its store

The calls of a run follow one protocol, whatever the store answers (`generate_protocol`). A run that
cannot be planned calls nothing. Any other asks first whether there is something at the root, and if
it may go on it makes the changes for the tree, one after the other, until one fails. A failure is
followed by the removal of the root exactly if nothing was there, and the answer to the removal does
not matter.
-/

namespace Scaffold

/-- The changes that write the entries of a tree below `root`: a directory is made, and a file is
written behind the directory that it lies in. -/
def TreeEntry.script (root : Path) : List TreeEntry → List Change
  | [] => []
  | directory d :: entries => .createDirectory (root.join d.path) :: script root entries
  | file f content :: entries =>
    match (root.join f.path).parent? with
    | some above =>
      .createDirectory above :: .writeFile (root.join f.path) content :: script root entries
    | none => .writeFile (root.join f.path) content :: script root entries

theorem OutputTree.changes_eq_script (t : OutputTree) (root : Path) :
    t.changes root = .createDirectory root :: TreeEntry.script root t.entries := by
  have hentries : ∀ entries : List TreeEntry,
      entries.flatMap (TreeEntry.changes root) = TreeEntry.script root entries := by
    intro entries
    induction entries with
    | nil => rfl
    | cons entry entries ih =>
      rw [List.flatMap_cons, ih]
      cases entry with
      | directory d => rfl
      | file f content =>
        rw [TreeEntry.changes, TreeEntry.script]
        cases (root.join f.path).parent? <;> rfl
  rw [changes, hentries]

/-- What a run may exchange with its store, given what was planned, and with what result. -/
inductive RunProtocol (p : Project) (root : Path) (force : Bool) :
    Except Error Application → List Exchange → Except Error Report → Prop
  /-- Without a plan there is no call. -/
  | unplanned (e : Error) : RunProtocol p root force (.error e) [] (.error e)
  /-- There is something at the root, and the run is not forced. -/
  | refused (a : Application) (unforced : force = false) :
      RunProtocol p root force (.ok a) [.has root true] (.error (.run (.projectExists root)))
  /-- No change fails. -/
  | written {a : Application} {existed : Bool} {exchanges : List Exchange}
      (allowed : existed = true → force = true)
      (made : Exchange.Made (.createDirectory root :: TreeEntry.script root a.tree.entries)
        exchanges (.ok ())) :
      RunProtocol p root force (.ok a) (.has root existed :: exchanges) (.ok (a.report p root))
  /-- A change fails where there was something at the root. -/
  | abandoned {a : Application} {exchanges : List Exchange} {e : Error} (forced : force = true)
      (made : Exchange.Made (.createDirectory root :: TreeEntry.script root a.tree.entries)
        exchanges (.error e)) :
      RunProtocol p root force (.ok a) (.has root true :: exchanges) (.error e)
  /-- A change fails where there was nothing at the root. -/
  | removed {a : Application} {exchanges : List Exchange} {e : Error}
      (made : Exchange.Made (.createDirectory root :: TreeEntry.script root a.tree.entries)
        exchanges (.error e)) (removal : Except Error Unit) :
      RunProtocol p root force (.ok a)
        (.has root false :: exchanges ++ [.change (.removeDirectory root) removal]) (.error e)

/-- A run keeps to the protocol, whatever the store answers. -/
theorem generate_protocol {σ : Type} (behind : Store (StateM σ)) (s : σ)
    (loaded : Except Error BaseCode) (p : Project) (root : Path) (options : GenerateOptions) :
    ∃ result exchanges s', (generate behind.noted loaded p root options).run ([], s) =
        (result, exchanges, s') ∧
      RunProtocol p root options.force (plan loaded p options.policy) exchanges result := by
  rw [run_generate]
  cases plan loaded p options.policy with
  | error e => exact ⟨_, _, _, rfl, .unplanned e⟩
  | ok a =>
    simp only [Store.run_write, Store.run_has_noted, List.nil_append, a.tree.changes_eq_script]
    rcases (behind.has root).run s with ⟨existed, s₁⟩
    obtain ⟨result, exchanges, s₂, hrun, hmade⟩ := Store.exists_run_applyAll_noted behind
      (.createDirectory root :: TreeEntry.script root a.tree.entries) [.has root existed] s₁
    -- what was at the root decides whether the run may go on, and whether it cleans up after itself
    cases existed with
    | false =>
      simp only [Bool.false_and, Bool.false_eq_true, if_false, hrun]
      cases result with
      | ok => exact ⟨_, _, _, rfl, .written nofun hmade⟩
      | error e =>
        simp only [Store.run_removeDirectory_noted]
        exact ⟨_, _, _, rfl, .removed hmade _⟩
    | true =>
      cases hforce : options.force with
      | false => exact ⟨_, _, _, rfl, .refused a rfl⟩
      | true =>
        simp only [Bool.not_true, Bool.and_false, Bool.false_eq_true, if_false, hrun]
        cases result with
        | ok => exact ⟨_, _, _, rfl, .written (fun _ => rfl) hmade⟩
        | error e => exact ⟨_, _, _, rfl, .abandoned rfl hmade⟩

end Scaffold

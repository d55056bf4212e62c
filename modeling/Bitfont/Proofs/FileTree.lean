import Bitfont.FileTree
import Bitfont.Proofs.Except

namespace Bitfont.FileTree

variable {tree : FileTree} {location : Location} {path : Octets} {content : Array UInt8} {octets : Octets}

def Leads (tree : FileTree) (path : Octets) (location : Location) : Prop :=
  ∃ directory name, tree.target path = .ok (.named directory name) ∧ location = directory ++ [name]

-- A walk goes through directories only, so it is the same when a file is replaced.
theorem enter_put {directory next : Location} {step : Octets}
    (notDirectory : tree.lookup location ≠ some .directory)
    (entered : tree.enter directory step = .ok next) :
    (tree.put location (.file content)).enter directory step = .ok next := by
  unfold enter at entered ⊢
  by_cases here : step = Path.dot
  · rwa [if_pos here] at entered ⊢
  by_cases up : step = Path.dotDot
  · rwa [if_neg here, if_pos up] at entered ⊢
  by_cases long : maxName < step.length
  · rw [if_neg here, if_neg up, if_pos long] at entered
    contradiction
  rw [if_neg here, if_neg up, if_neg long] at entered ⊢
  cases found : tree.lookup (directory ++ [step]) with
  | none =>
      rw [found] at entered
      contradiction
  | some entry =>
      cases entry with
      | file old =>
          rw [found] at entered
          contradiction
      | directory =>
          have different : directory ++ [step] ≠ location := by
            rintro rfl
            exact notDirectory found
          rw [found] at entered
          rw [lookup_put_other tree _ different, found]
          exact entered

theorem foldl_enter_put {steps : List Octets} {start last : Location}
    (notDirectory : tree.lookup location ≠ some .directory)
    (walked : steps.foldlM tree.enter start = .ok last) :
    steps.foldlM (tree.put location (.file content)).enter start = .ok last := by
  induction steps generalizing start with
  | nil => exact walked
  | cons step steps ih =>
      rw [List.foldlM_cons] at walked ⊢
      obtain ⟨next, entered, rest⟩ := bind_eq_ok_iff.mp walked
      exact bind_eq_ok_iff.mpr ⟨next, enter_put notDirectory entered, ih rest⟩

theorem target_put {target : Target} (notDirectory : tree.lookup location ≠ some .directory)
    (found : tree.target path = .ok target) :
    (tree.put location (.file content)).target path = .ok target := by
  unfold FileTree.target at found ⊢
  by_cases empty : path.isEmpty
  · rwa [if_pos empty] at found ⊢
  by_cases nul : path.contains 0
  · rwa [if_neg empty, if_pos nul] at found ⊢
  by_cases long : maxPath < path.length
  · rwa [if_neg empty, if_neg nul, if_pos long] at found ⊢
  rw [if_neg empty, if_neg nul, if_neg long] at found ⊢
  dsimp only at found ⊢
  cases final : (Path.steps path).getLast? with
  | none =>
      rw [final] at found
      exact found
  | some last =>
      rw [final] at found
      obtain ⟨directory, walked, named⟩ := bind_eq_ok_iff.mp found
      exact bind_eq_ok_iff.mpr ⟨directory, foldl_enter_put notDirectory walked, named⟩

theorem destination_eq_ok (opened : tree.destination path = .ok location) :
    ∃ directory name, tree.target path = .ok (.named directory name) ∧
      location = directory ++ [name] ∧ asksForDirectory path = false ∧ name.length ≤ maxName ∧
      tree.lookup location ≠ some .directory := by
  obtain ⟨target, found, allowed⟩ := bind_eq_ok_iff.mp opened
  cases target with
  | directory => contradiction
  | named directory name =>
      dsimp only at allowed
      by_cases slash : asksForDirectory path
      · rw [if_pos slash] at allowed
        contradiction
      by_cases long : maxName < name.length
      · rw [if_neg slash, if_pos long] at allowed
        contradiction
      by_cases isDirectory : tree.lookup (directory ++ [name]) = some .directory
      · rw [if_neg slash, if_neg long, if_pos isDirectory] at allowed
        contradiction
      rw [if_neg slash, if_neg long, if_neg isDirectory] at allowed
      cases refused : tree.refusal? .writing (directory ++ [name]) with
      | some error =>
          rw [refused] at allowed
          contradiction
      | none =>
          rw [refused] at allowed
          obtain rfl := Except.ok.inj allowed
          exact ⟨directory, name, found, rfl, by simpa using slash, Nat.not_lt.mp long, isDirectory⟩

structure Stores (tree : FileTree) (path : Octets) (location : Location) (octets : Octets)
    (after : FileTree) : Prop where
  leads : tree.Leads path location
  stored : after.lookup location = some (.file octets.toArray)
  others : ∀ other, other ≠ location → after.lookup other = tree.lookup other
  back : tree.refusal? .reading location = none → after.read path = .ok octets.toArray

theorem stores_put (opened : tree.destination path = .ok location) (octets : Octets) :
    tree.Stores path location octets (tree.put location (.file octets.toArray)) := by
  obtain ⟨directory, name, found, rfl, noSlash, short, notDirectory⟩ := destination_eq_ok opened
  have stored := lookup_put_self (.file octets.toArray) notDirectory
  refine ⟨⟨directory, name, found, rfl⟩, stored, fun other => lookup_put_other tree _, ?_⟩
  intro allowed
  have unrefused : (tree.put (directory ++ [name]) (.file octets.toArray)).refusal? .reading
      (directory ++ [name]) = none := allowed
  refine bind_eq_ok_iff.mpr ⟨_, target_put notDirectory found, ?_⟩
  dsimp only
  rw [if_neg (Nat.not_lt.mpr short), stored, unrefused]
  dsimp only
  rw [noSlash]
  rfl

theorem write_unopened {error : FileError} (unopened : tree.destination path = .error error)
    (octets : Octets) : tree.write path octets = (.error error, tree) := by
  rw [write, unopened]

theorem write_opened (opened : tree.destination path = .ok location) (octets : Octets) :
    (tree.write path octets).1 = (tree.outlet location octets).result ∧
      tree.Stores path location ((tree.outlet location octets).kept octets) (tree.write path octets).2 := by
  rw [write, opened]
  exact ⟨rfl, stores_put opened _⟩

theorem read_eq_ok (read : tree.read path = .ok content) :
    ∃ directory name, tree.target path = .ok (.named directory name) ∧
      asksForDirectory path = false ∧ name.length ≤ maxName ∧
      tree.lookup (directory ++ [name]) = some (.file content) := by
  obtain ⟨target, found, present⟩ := bind_eq_ok_iff.mp read
  cases target with
  | directory => contradiction
  | named directory name =>
      dsimp only at present
      by_cases long : maxName < name.length
      · rw [if_pos long] at present
        contradiction
      rw [if_neg long] at present
      split at present
      · contradiction
      · contradiction
      next stored =>
        by_cases slash : asksForDirectory path
        · rw [if_pos slash] at present
          contradiction
        rw [if_neg slash] at present
        split at present
        · contradiction
        · obtain rfl := Except.ok.inj present
          exact ⟨directory, name, found, by simpa using slash, Nat.not_lt.mp long, stored⟩

-- No file that could be written to is kept from it, and all that is written is taken.
structure Writable (tree : FileTree) : Prop where
  unrefused : ∀ location, tree.refusal? .writing location = none
  whole : ∀ location octets, tree.outlet location octets = .whole

theorem rewrite_same (writable : tree.Writable) (read : tree.read path = .ok octets.toArray) :
    (tree.write path octets).1 = .ok () ∧
      ∀ location, (tree.write path octets).2.lookup location = tree.lookup location := by
  obtain ⟨directory, name, found, noSlash, short, stored⟩ := read_eq_ok read
  have opened : tree.destination path = .ok (directory ++ [name]) := by
    refine bind_eq_ok_iff.mpr ⟨_, found, ?_⟩
    dsimp only
    rw [noSlash, if_neg (Nat.not_lt.mpr short), stored, writable.unrefused]
    rfl
  obtain ⟨result, stores⟩ := write_opened opened octets
  rw [writable.whole] at result stores
  refine ⟨result, fun other => ?_⟩
  by_cases same : other = directory ++ [name]
  · rw [same, stores.stored, stored]
    rfl
  · exact stores.others other same

end Bitfont.FileTree

import Mathlib
import MarketFormula.FileTree
import MarketFormula.Proofs.Result

/-!
# What a written file changes

What was written to a path is read there again.
-/
namespace MarketFormula.FileTree

lemma lookup_filter_of_ne {β : Type} {entries : List (Way × β)} {way other : Way}
    (h : way ≠ other) : (entries.filter (·.1 != other)).lookup way = entries.lookup way := by
  induction entries with
  | nil => rfl
  | cons entry entries ih =>
    obtain ⟨key, value⟩ := entry
    by_cases hkey : key = other
    · subst hkey
      rw [List.filter_cons_of_neg (by simp), ih, List.lookup_cons, beq_false_of_ne h]
    · rw [List.filter_cons_of_pos (by simpa using hkey), List.lookup_cons, List.lookup_cons, ih]

/-- The tree with a file in the place of what stands there. -/
def set (tree : FileTree) (way : Way) (content : String) : FileTree :=
  { tree with files := (way, content) :: tree.files.filter (·.1 != way) }

section Set

variable {tree : FileTree} {way other : Way} {content : String}

lemma lookup_set_of_ne (h : other ≠ way) :
    (tree.set way content).files.lookup other = tree.files.lookup other := by
  rw [set, List.lookup_cons, beq_false_of_ne h]
  exact lookup_filter_of_ne h

lemma place_set_self : (tree.set way content).place way = .file content := by
  rw [place, set, List.lookup_cons, beq_self_eq_true]

lemma isDirectory_set (h : tree.isDirectory other = true) :
    (tree.set way content).isDirectory other = true := by
  simp only [isDirectory, Bool.or_eq_true, List.any_eq_true] at h ⊢
  obtain h | ⟨file, hfile, hbelow⟩ := h
  · exact .inl h
  · right
    by_cases hway : file.1 = way
    · exact ⟨(way, content), List.mem_cons_self .., hway ▸ hbelow⟩
    · have hkept : file ∈ tree.files.filter (·.1 != way) :=
        List.mem_filter.mpr ⟨hfile, by simpa using hway⟩
      exact ⟨file, List.mem_cons_of_mem _ hkept, hbelow⟩

variable (hway : tree.place way ≠ .directory)

include hway

lemma place_set_directory (h : tree.place other = .directory) :
    (tree.set way content).place other = .directory := by
  have hne : other ≠ way := by
    rintro rfl
    exact hway h
  unfold place at h ⊢
  rw [lookup_set_of_ne hne]
  cases hlookup : tree.files.lookup other with
  | some content =>
    rw [hlookup] at h
    cases h
  | none =>
    simp only [hlookup] at h ⊢
    split at h
    · next hdirectory => rw [isDirectory_set hdirectory, if_pos rfl]
    · cases h

lemma follow_set {path : String} {start finish : Way} {steps : List String}
    (h : tree.follow path start steps = .ok finish) :
    (tree.set way content).follow path start steps = .ok finish := by
  induction steps generalizing start with
  | nil => exact h
  | cons name rest ih =>
    unfold follow at h ⊢
    split at h
    · next hplace =>
      rw [place_set_directory hway hplace]
      dsimp only
      split at h
      · cases h
      · next hname =>
        rw [if_neg hname]
        exact ih h
    · cases h
    · cases h

end Set

/-- The way of a path leads to the place of a file, or of one that can be made. -/
structure Leads (tree : FileTree) (path : String) (way : Way) : Prop where
  parent : ∃ directory, tree.find (Path.parent path) = .ok (directory, .directory)
  check : Path.check path = .ok ()
  follow : tree.follow path (.start path) (Way.steps path) = .ok way
  slash : path.endsWith "/" = false
  notSame : ((Way.steps path).getLast?.getD "." == ".") = false
  notUp : ((Way.steps path).getLast?.getD "." == "..") = false
  place : tree.place way ≠ .directory

def IsWritable (tree : FileTree) (path : String) : Prop :=
  ∃ content tree', tree.write path content = .ok tree'

variable {tree tree' : FileTree} {path content : String} {way : Way}

lemma write_eq_ok_iff : tree.write path content = .ok tree' ↔
    ∃ way, tree.Leads path way ∧ tree' = tree.set way content := by
  unfold write
  constructor
  · intro h
    split at h
    · next directory hdirectory =>
      simp only [bind_eq_ok_iff] at h
      obtain ⟨⟨⟩, hcheck, way, hfollow, h⟩ := h
      split at h
      · cases h
      · next hfile =>
        cases h
        simp only [Bool.or_eq_true, not_or, decide_eq_true_eq, Bool.not_eq_true] at hfile
        obtain ⟨⟨⟨hslash, hsame⟩, hup⟩, hplace⟩ := hfile
        exact ⟨way, ⟨⟨directory, hdirectory⟩, hcheck, hfollow, hslash, hsame, hup, hplace⟩, rfl⟩
    · cases h
    · cases h
  · rintro ⟨way, ⟨⟨directory, hdirectory⟩, hcheck, hfollow, hslash, hsame, hup, hplace⟩, rfl⟩
    rw [hdirectory]
    simp only [bind_eq_ok_iff]
    refine ⟨(), hcheck, way, hfollow, ?_⟩
    rw [hslash, hsame, hup, decide_eq_false hplace]
    rfl

lemma IsWritable.exists_write (h : tree.IsWritable path) (content : String) :
    ∃ tree', tree.write path content = .ok tree' := by
  obtain ⟨before, tree', hwrite⟩ := h
  obtain ⟨way, hway, -⟩ := write_eq_ok_iff.mp hwrite
  exact ⟨tree.set way content, write_eq_ok_iff.mpr ⟨way, hway, rfl⟩⟩

lemma Leads.isEmpty_eq_false (h : tree.Leads path way) : path.isEmpty = false := by
  -- the empty path has no steps and would be refused as one that ends in `.`
  by_contra hempty
  rw [Bool.not_eq_false, String.isEmpty_iff] at hempty
  have hsteps : Way.steps path = [] := by
    rw [hempty]
    cbv
  have hsame := h.notSame
  rw [hsteps] at hsame
  cases hsame

theorem read_of_write (h : tree.write path content = .ok tree') :
    tree'.read path = .ok content := by
  obtain ⟨way, hway, rfl⟩ := write_eq_ok_iff.mp h
  have hfind : (tree.set way content).find path = .ok (way, .file content) := by
    simp only [find, bind_eq_ok_iff, hway.slash, Bool.false_eq_true, if_false, List.append_nil]
    exact ⟨(), hway.check, way, follow_set hway.place hway.follow, by rw [place_set_self]; rfl⟩
  rw [read, hway.isEmpty_eq_false, if_neg (by decide), hfind]

end MarketFormula.FileTree

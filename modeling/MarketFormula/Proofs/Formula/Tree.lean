import Mathlib.Algebra.GroupWithZero.Nat
import Mathlib.Order.Nat
import MarketFormula.Evaluation.Vocabulary
import MarketFormula.Formula.Parse

/-!
# Expression trees: induction, columns and height

Induction over trees assumes a property of every argument of a call. The columns and the height of a
tree are read off its nodes, and the depth check accepts exactly the trees of limited height.
-/
namespace MarketFormula.Expr

/-- Induction over a tree with one hypothesis for each argument of a call. -/
@[elab_as_elim, induction_eliminator]
theorem induction {motive : Expr → Prop}
    (binary : ∀ op left right position, motive left → motive right →
      motive (.binary op left right position))
    (unary : ∀ op operand position, motive operand → motive (.unary op operand position))
    (literal : ∀ value position, motive (.literal value position))
    (field : ∀ name position, motive (.field name position))
    (call : ∀ name args position, (∀ e ∈ args, motive e) → motive (.call name args position))
    (bare : motive .bare) (e : Expr) : motive e := by
  refine @Expr.rec motive (fun es => ∀ e ∈ es, motive e) binary unary literal field call bare
    ?_ ?_ e
  · intro e he
    cases he
  · intro head tail hhead htail e he
    rcases List.mem_cons.mp he with rfl | he
    · exact hhead
    · exact htail e he

mutual

def fields : Expr → List Field
  | binary _ left right _ => left.fields ++ right.fields
  | unary _ operand _ => operand.fields
  | field name _ => (Field.ofLetter? (Text.upper name)).toList
  | call _ args _ => fieldsAll args
  | _ => []

def fieldsAll : List Expr → List Field
  | [] => []
  | e :: es => e.fields ++ fieldsAll es

end

lemma fields_subset_fieldsAll {e : Expr} {es : List Expr} (h : e ∈ es) :
    e.fields ⊆ fieldsAll es := by
  induction es with
  | nil => cases h
  | cons head tail ih =>
    rw [fieldsAll]
    rcases List.mem_cons.mp h with rfl | h
    · exact List.subset_append_left _ _
    · exact List.Subset.trans (ih h) (List.subset_append_right _ _)

mutual

def height : Expr → Nat
  | binary _ left right _ => max left.height right.height + 1
  | unary _ operand _ => operand.height + 1
  | call _ args _ => heightAll args + 1
  | _ => 1

def heightAll : List Expr → Nat
  | [] => 0
  | e :: es => max e.height (heightAll es)

end

lemma heightAll_le_iff {es : List Expr} {n : Nat} :
    heightAll es ≤ n ↔ ∀ e ∈ es, e.height ≤ n := by
  induction es with
  | nil => simp [heightAll]
  | cons e es ih => rw [heightAll, Nat.max_le, ih, List.forall_mem_cons]

lemma height_le_succ_iff (e : Expr) (n : Nat) :
    e.height ≤ n + 1 ↔ ∀ child ∈ e.children, child.height ≤ n := by
  cases e with
  | binary op left right position =>
    rw [height, Nat.add_le_add_iff_right, Nat.max_le]
    simp [children]
  | unary op operand position =>
    rw [height, Nat.add_le_add_iff_right]
    simp [children]
  | call name args position =>
    rw [height, Nat.add_le_add_iff_right, heightAll_le_iff, children]
  | _ => simp [height, children]

lemma height_pos (e : Expr) : 0 < e.height := by
  cases e <;> simp [height]

lemma sizeAll_eq_sum (es : List Expr) : sizeAll es = (es.map size).sum := by
  induction es with
  | nil => rfl
  | cons e es ih => simp [sizeAll, ih]

lemma size_eq_sum (e : Expr) : e.size = (e.children.map size).sum + 1 := by
  cases e <;> simp [size, children, sizeAll_eq_sum]

section Depth

variable {limit : Int}

/-- The trees on a stack that end within the limit, each started at its own depth. -/
def WithinAll (limit : Int) (stack : List (Expr × Int)) : Prop :=
  ∀ entry ∈ stack, entry.2 + entry.1.height ≤ limit + 1

lemma withinAll_cons (e : Expr) (depth : Int) (stack : List (Expr × Int)) :
    WithinAll limit ((e, depth) :: stack) ↔
      depth + e.height ≤ limit + 1 ∧ WithinAll limit stack := by
  simp [WithinAll]

lemma withinAll_children (e : Expr) {depth : Int} (hdepth : depth ≤ limit)
    (stack : List (Expr × Int)) :
    WithinAll limit ((e.children.map (·, depth + 1)).reverse ++ stack) ↔
      depth + e.height ≤ limit + 1 ∧ WithinAll limit stack := by
  have hnode : depth + e.height ≤ limit + 1 ↔
      ∀ child ∈ e.children, depth + 1 + child.height ≤ limit + 1 := by
    obtain ⟨n, hn⟩ : ∃ n : Nat, limit = depth + n := ⟨(limit - depth).toNat, by omega⟩
    have hheight := height_le_succ_iff e n
    have hle : depth + e.height ≤ limit + 1 ↔ e.height ≤ n + 1 := by omega
    rw [hle, hheight]
    refine forall₂_congr fun child _ => ?_
    omega
  rw [hnode]
  simp only [WithinAll, List.mem_append, List.mem_reverse, List.mem_map]
  constructor
  · intro h
    exact ⟨fun child hchild => h _ (.inl ⟨child, hchild, rfl⟩),
      fun entry hentry => h _ (.inr hentry)⟩
  · rintro ⟨hchildren, hstack⟩ entry (⟨child, hchild, rfl⟩ | hentry)
    · exact hchildren child hchild
    · exact hstack entry hentry

def nodesOn (stack : List (Expr × Int)) : Nat :=
  (stack.map (·.1.size)).sum

lemma nodesOn_cons (e : Expr) (depth : Int) (stack : List (Expr × Int)) :
    nodesOn ((e, depth) :: stack) =
      nodesOn ((e.children.map (·, depth + 1)).reverse ++ stack) + 1 := by
  have hchildren : ((e.children.map (·, depth + 1)).map (·.1.size)).sum =
      (e.children.map size).sum := by
    rw [List.map_map]
    rfl
  have hsize := size_eq_sum e
  simp only [nodesOn, List.map_cons, List.sum_cons, List.map_append, List.map_reverse,
    List.sum_append, List.sum_reverse, hchildren]
  omega

lemma firstBelow?_eq_none_iff {rounds : Nat} {stack : List (Expr × Int)}
    (h : nodesOn stack ≤ rounds) :
    firstBelow? limit rounds stack = none ↔ WithinAll limit stack := by
  -- the number of nodes on the stack bounds the rounds, so every node is seen
  induction rounds generalizing stack with
  | zero =>
    rcases stack with _ | ⟨⟨e, depth⟩, stack⟩
    · simp [firstBelow?, WithinAll]
    · rw [nodesOn_cons] at h
      omega
  | succ rounds ih =>
    rcases stack with _ | ⟨⟨e, depth⟩, stack⟩
    · simp [firstBelow?, WithinAll]
    · by_cases hdepth : limit < depth
      · have := height_pos e
        have hbelow : ¬ WithinAll limit ((e, depth) :: stack) := by
          rw [withinAll_cons]
          omega
        simp [firstBelow?, hdepth, hbelow]
      · rw [nodesOn_cons, Nat.add_le_add_iff_right] at h
        rw [firstBelow?, if_neg hdepth, ih h, withinAll_cons,
          withinAll_children e (by omega)]

theorem checkDepth_eq_ok_iff (e : Expr) : checkDepth limit e = .ok () ↔ e.height ≤ limit := by
  have hwalk := @firstBelow?_eq_none_iff limit e.size [(e, 1)] (by simp [nodesOn])
  have hwithin : WithinAll limit [(e, 1)] ↔ e.height ≤ limit := by
    simp only [WithinAll, List.forall_mem_singleton]
    omega
  rw [hwithin] at hwalk
  rw [← hwalk, checkDepth]
  split
  · next hnode => simp [hnode]
  · next hnone => simp [hnone]

lemma kind_of_checkDepth {e : Expr} {error : FormulaError}
    (h : checkDepth limit e = .error error) : error.kind = .malformed := by
  rw [checkDepth] at h
  split at h
  · cases h; rfl
  · cases h

end Depth

end MarketFormula.Expr

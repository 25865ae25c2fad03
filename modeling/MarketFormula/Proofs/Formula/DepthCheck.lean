import Mathlib.Data.List.Basic
import Mathlib.Logic.Relation
import MarketFormula.Proofs.Formula.Tree

/-!
# The order of the depth check

The depth check takes nodes from a stack and puts the children of each there in its place. It so
visits every node before those below it and later branches before earlier ones.
-/
namespace MarketFormula.Expr

mutual

/-- The nodes of a tree with their depths, later branches before earlier ones. -/
def rightFirst (depth : Int) : Expr → List (Expr × Int)
  | binary op left right position =>
    (binary op left right position, depth) ::
      (rightFirst (depth + 1) right ++ rightFirst (depth + 1) left)
  | unary op operand position =>
    (unary op operand position, depth) :: rightFirst (depth + 1) operand
  | call name args position => (call name args position, depth) :: rightFirstAll (depth + 1) args
  | e => [(e, depth)]

def rightFirstAll (depth : Int) : List Expr → List (Expr × Int)
  | [] => []
  | e :: es => rightFirstAll depth es ++ rightFirst depth e

end

lemma rightFirstAll_eq_flatMap (depth : Int) (es : List Expr) :
    rightFirstAll depth es = es.reverse.flatMap (rightFirst depth) := by
  induction es with
  | nil => rfl
  | cons e es ih => simp [rightFirstAll, ih]

lemma rightFirst_eq (depth : Int) (e : Expr) :
    e.rightFirst depth = (e, depth) :: e.children.reverse.flatMap (rightFirst (depth + 1)) := by
  cases e <;> simp [rightFirst, children, rightFirstAll_eq_flatMap]

lemma children_induction {P : Expr → Prop}
    (h : ∀ e, (∀ child ∈ e.children, P child) → P e) (e : Expr) : P e := by
  induction e with
  | binary op left right position hleft hright => exact h _ (by simp [children, hleft, hright])
  | unary op operand position hoperand => exact h _ (by simp [children, hoperand])
  | literal value position => exact h _ (by simp [children])
  | field name position => exact h _ (by simp [children])
  | call name args position hargs => exact h _ hargs
  | bare => exact h _ (by simp [children])

section Order

variable {limit : Int}

lemma depth_of_find? {e : Expr} {depth : Int} {entry : Expr × Int}
    (h : (e.rightFirst depth).find? (limit < ·.2) = some entry) :
    entry.2 = max depth (limit + 1) := by
  induction e using children_induction generalizing depth with | _ e ih =>
  rw [rightFirst_eq] at h
  by_cases hdepth : limit < depth
  · rw [List.find?_cons_of_pos (by simpa using hdepth)] at h
    cases h
    change depth = max depth (limit + 1)
    omega
  · rw [List.find?_cons_of_neg (by simpa using hdepth), List.find?_flatMap] at h
    obtain ⟨child, hchild, h⟩ := List.exists_of_findSome?_eq_some h
    rw [ih child (List.mem_reverse.mp hchild) h]
    omega

/-- The nodes that a walk with a stack has before it. -/
def ahead (stack : List (Expr × Int)) : List (Expr × Int) :=
  stack.flatMap fun entry => entry.1.rightFirst entry.2

lemma ahead_cons (e : Expr) (depth : Int) (stack : List (Expr × Int)) :
    ahead ((e, depth) :: stack) =
      (e, depth) :: ahead ((e.children.map (·, depth + 1)).reverse ++ stack) := by
  rw [ahead, List.flatMap_cons, rightFirst_eq]
  simp [ahead, ← List.map_reverse, List.flatMap_map]

variable (limit) in
lemma firstBelow?_eq_find? {rounds : Nat} {stack : List (Expr × Int)} (h : nodesOn stack ≤ rounds) :
    firstBelow? limit rounds stack = ((ahead stack).find? (limit < ·.2)).map (·.1) := by
  induction rounds generalizing stack with
  | zero =>
    rcases stack with _ | ⟨⟨e, depth⟩, stack⟩
    · rfl
    · rw [nodesOn_cons] at h
      omega
  | succ rounds ih =>
    rcases stack with _ | ⟨⟨e, depth⟩, stack⟩
    · rfl
    · rw [nodesOn_cons, Nat.add_le_add_iff_right] at h
      rw [firstBelow?, ahead_cons]
      by_cases hdepth : limit < depth
      · rw [if_pos hdepth, List.find?_cons_of_pos (by simpa using hdepth), Option.map_some]
      · rw [if_neg hdepth, List.find?_cons_of_neg (by simpa using hdepth), ih h]

end Order

section Rounds

/-- One round of the check: the node on top is not too deep, and its children take its place, the
last of them on top. -/
inductive Round (limit : Int) : List (Expr × Int) → List (Expr × Int) → Prop
  | visit (e : Expr) {depth : Int} (stack : List (Expr × Int)) (h : depth ≤ limit) :
    Round limit ((e, depth) :: stack) ((e.children.map (·, depth + 1)).reverse ++ stack)

/-- The answer of a walk where no round is left: the tree is refused if a node is on top. -/
def walkAnswer : List (Expr × Int) → Except FormulaError Unit
  | [] => .ok ()
  | (node, _) :: _ => .error (.nestedTooDeeply node.label node.position)

variable {limit : Int}

lemma wellFounded_round : WellFounded fun after before => Round limit before after := by
  -- every round leaves one node less
  refine Subrelation.wf (fun h => ?_) (measure nodesOn).wf
  obtain ⟨e, stack, -⟩ := h
  change nodesOn _ < nodesOn _
  rw [nodesOn_cons]
  exact Nat.lt_succ_self _

variable (limit) in
lemma exists_final {rounds : Nat} {stack : List (Expr × Int)} (h : nodesOn stack ≤ rounds) :
    ∃ final, Relation.ReflTransGen (Round limit) stack final ∧
      (∀ after, ¬ Round limit final after) ∧
      firstBelow? limit rounds stack = final.head?.map (·.1) := by
  induction rounds generalizing stack with
  | zero =>
    rcases stack with _ | ⟨⟨e, depth⟩, stack⟩
    · exact ⟨[], .refl, nofun, rfl⟩
    · rw [nodesOn_cons] at h
      omega
  | succ rounds ih =>
    rcases stack with _ | ⟨⟨e, depth⟩, stack⟩
    · exact ⟨[], .refl, nofun, rfl⟩
    · by_cases hdepth : limit < depth
      · refine ⟨(e, depth) :: stack, .refl, ?_, by simp [firstBelow?, hdepth]⟩
        rintro _ (⟨_, _, hle⟩)
        omega
      · rw [nodesOn_cons, Nat.add_le_add_iff_right] at h
        obtain ⟨final, hwalk, hfinal, hfirst⟩ := ih h
        refine ⟨final, .head (.visit e stack (by omega)) hwalk, hfinal, ?_⟩
        rw [firstBelow?, if_neg hdepth, hfirst]

lemma checkDepth_of_firstBelow? {e : Expr} {final : List (Expr × Int)}
    (h : firstBelow? limit e.size [(e, 1)] = final.head?.map (·.1)) :
    checkDepth limit e = walkAnswer final := by
  rw [checkDepth, h]
  cases final <;> rfl

lemma exists_refused {e : Expr} (h : limit < e.height) :
    ∃ before node after, e.rightFirst 1 = before ++ (node, max 1 (limit + 1)) :: after ∧
      (∀ entry ∈ before, entry.2 ≠ max 1 (limit + 1)) ∧
      checkDepth limit e = .error (.nestedTooDeeply node.label node.position) := by
  have hnodes : nodesOn [(e, 1)] ≤ e.size := by simp [nodesOn]
  have hfind := firstBelow?_eq_find? limit hnodes
  have hahead : ahead [(e, 1)] = e.rightFirst 1 := by simp [ahead]
  rw [hahead] at hfind
  cases hentry : (e.rightFirst 1).find? (limit < ·.2) with
  | none =>
    have hok : checkDepth limit e = .ok () := by
      rw [checkDepth, hfind, hentry]
      rfl
    exact absurd h (Int.not_lt.mpr ((checkDepth_eq_ok_iff e).mp hok))
  | some entry =>
    obtain ⟨node, depth⟩ := entry
    obtain rfl : depth = max 1 (limit + 1) := depth_of_find? hentry
    obtain ⟨-, before, after, hsplit, hbefore⟩ := List.find?_eq_some_iff_append.mp hentry
    refine ⟨before, node, after, hsplit, fun entry hmem => ?_, ?_⟩
    · have hwithin := hbefore entry hmem
      simp only [Bool.not_eq_true', decide_eq_false_iff_not] at hwithin
      omega
    · rw [checkDepth, hfind, hentry]
      rfl

end Rounds

/-- The check comes to an end, and its answer is that of the walk with a stack. It accepts a tree
whose height is within the limit. Otherwise it refuses the first node at the first depth below the
limit, where nodes come before those below them and later branches before earlier ones. -/
theorem checkDepth_walk (limit : Int) (e : Expr) :
    (WellFounded fun after before => Round limit before after) ∧
    (∃ final, Relation.ReflTransGen (Round limit) [(e, 1)] final ∧
      (∀ after, ¬ Round limit final after) ∧ checkDepth limit e = walkAnswer final) ∧
    (((e.height : Int) ≤ limit ∧ checkDepth limit e = .ok ()) ∨
      (limit < e.height ∧ ∃ before node after error,
        e.rightFirst 1 = before ++ (node, max 1 (limit + 1)) :: after ∧
        (∀ entry ∈ before, entry.2 ≠ max 1 (limit + 1)) ∧
        checkDepth limit e = .error error ∧ error.kind = .malformed ∧
        error.detail = "Formula nested too deeply" ∧ error.token? = some node.label ∧
        error.position? = some node.position)) := by
  have hnodes : nodesOn [(e, 1)] ≤ e.size := by simp [nodesOn]
  obtain ⟨final, hwalk, hend, hfirst⟩ := exists_final limit hnodes
  refine ⟨wellFounded_round, ⟨final, hwalk, hend, checkDepth_of_firstBelow? hfirst⟩, ?_⟩
  by_cases hheight : (e.height : Int) ≤ limit
  · exact .inl ⟨hheight, (checkDepth_eq_ok_iff e).mpr hheight⟩
  · obtain ⟨before, node, after, hsplit, hbefore, herror⟩ := exists_refused (Int.not_le.mp hheight)
    exact .inr ⟨Int.not_le.mp hheight, before, node, after, _, hsplit, hbefore, herror, rfl, rfl, rfl,
      rfl⟩

/-- Of two branches that are too deep the right one is refused. -/
example : checkDepth 1 (.binary .add (.field "C" 0) (.field "O" 4) 2) =
    .error (.nestedTooDeeply "O" 4) := rfl

end MarketFormula.Expr

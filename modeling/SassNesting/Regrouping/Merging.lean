import SassNesting.Node.Basic
import SassNesting.Selector

/-! # Merging rules with equal bodies

Rules that follow each other with equal bodies say the same as one rule for the comma list of their
selectors. `Body.merge` keeps the first rule of such a run, with its body merged in turn, and adds
to its selector those of the rules after it whose bodies, as they stand, equal the merged one. Nodes
that are not rules do not end a run, and keep their order. -/

namespace SassNesting

namespace Body

/-- Takes from the front of a list the rules with a given body, up to the first rule with another
body: their selectors, and the list without them. -/
def takeEqual (shared : Body) : Body → List Text × Body
  | [] => ([], [])
  | .rule selector body :: rest =>
    if body = shared then
      let (selectors, left) := takeEqual shared rest
      (selector :: selectors, left)
    else ([], .rule selector body :: rest)
  | node :: rest =>
    let (selectors, left) := takeEqual shared rest
    (selectors, node :: left)

/-- Taking rules away leaves no more nodes than there were. -/
theorem count_takeEqual_le (shared body : Body) : count (takeEqual shared body).2 ≤ count body := by
  fun_induction takeEqual shared body <;> grind [count_cons, Node.count_rule]

/-- Merges each run of rules with equal bodies into one rule. -/
def merge : Body → Body
  | [] => []
  | .rule selector body :: rest =>
    let merged := merge body
    let taken := takeEqual merged rest
    .rule (Selector.ofPieces (selector :: taken.1)) merged :: merge taken.2
  | node :: rest => node :: merge rest
termination_by body => count body
decreasing_by
  · simp only [count_cons, Node.count_rule]
    omega
  · refine Nat.lt_of_le_of_lt (count_takeEqual_le _ rest) ?_
    simp only [count_cons, Node.count_rule]
    omega
  · rw [count_cons]
    exact Nat.lt_add_of_pos_left node.count_pos

@[simp] theorem merge_nil : merge [] = [] := by rw [merge]

end Body

end SassNesting

import Bhasha.Program

/-!
# Places of a program

A statement may have blocks of statements inside it, and each of them is a region of some kind.
Where a statement stands is a matter of the regions that are entered on the way to it.
-/

namespace Bhasha

/-- The kinds of blocks that statements have. -/
inductive Region where
  | branch
  | loop
  | function
  | attempt
  | handler
deriving DecidableEq

/-- The blocks of a statement. -/
def Stmt.blocks : Stmt → List (Region × List Stmt)
  | .branch _ yes no _ => [(.branch, yes), (.branch, no.getD [])]
  | .loop _ body _ => [(.loop, body)]
  | .range _ _ _ _ body _ => [(.loop, body)]
  | .define _ _ body _ => [(.function, body)]
  | .attempt body _ handler _ => [(.attempt, body), (.handler, handler)]
  | .declare .. | .print .. | .assign .. | .assignIndex .. | .assignProperty .. | .giveBack ..
  | .leave .. | .proceed .. | .expression .. => []

/-- A statement stands in a block, or in a block of one of its statements, and so on, where only
some kinds of regions may be entered on the way. -/
inductive Occurs (enter : Region → Prop) (found : Stmt) : List Stmt → Prop where
  | here {block : List Stmt} : found ∈ block → Occurs enter found block
  | inside {block inner : List Stmt} {statement : Stmt} {region : Region} :
      statement ∈ block → (region, inner) ∈ statement.blocks → enter region →
      Occurs enter found inner → Occurs enter found block

namespace Occurs

variable {enter : Region → Prop} {found : Stmt}

theorem of_subset
    {block wider : List Stmt} (h : Occurs enter found block)
    (hsubset : ∀ statement ∈ block, statement ∈ wider) : Occurs enter found wider := by
  cases h with
  | here hfound => exact .here (hsubset _ hfound)
  | inside hstatement hblock henter hinner =>
      exact .inside (hsubset _ hstatement) hblock henter hinner

/-- What occurs in a statement of a block occurs in the block. -/
theorem of_mem
    {block : List Stmt} {statement : Stmt} (h : Occurs enter found [statement])
    (hstatement : statement ∈ block) : Occurs enter found block := by
  apply h.of_subset
  intro other hother
  rw [List.mem_singleton.mp hother]
  exact hstatement

/-- What occurs in a block of a statement occurs in the statement. -/
theorem of_block
    {inner : List Stmt} {statement : Stmt} {region : Region} (h : Occurs enter found inner)
    (hblock : (region, inner) ∈ statement.blocks) (henter : enter region) :
    Occurs enter found [statement] :=
  .inside (List.mem_singleton_self _) hblock henter h

theorem trans
    {block : List Stmt} {statement : Stmt} (hstatement : Occurs enter statement block)
    (h : Occurs enter found [statement]) : Occurs enter found block := by
  induction hstatement with
  | here hmem => exact h.of_mem hmem
  | inside hmem hblock henter _ ih => exact .inside hmem hblock henter ih

end Occurs

end Bhasha

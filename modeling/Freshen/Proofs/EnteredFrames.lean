import Freshen.Proofs.Moves
import Mathlib.Data.List.Find

/-!
Steps that enter the frames of a table, one after another. While they are carried out, the bindings
of the frames entered so far are declared, and what they write is what the finished names say.
-/

namespace Freshen

theorem append_regroup (first second third fourth fifth : List Step) :
    first ++ second ++ third ++ fourth ++ fifth =
      first ++ (second ++ third ++ fourth ++ fifth) := by
  simp

theorem mem_hoistedNames {body : List Stmt} {name : String} :
    name ∈ hoistedNames body ↔ ∃ stmt ∈ body, stmt.hoistedName = some name := by
  simp [hoistedNames]

/-- With the frames `done` entered before, the steps enter the frames `inside`, and write what the
plain steps do. -/
def Follows (table : List (List String)) (style : Style) (frames : List Nat)
    (done inside : List (List String)) (steps plain : List Step) : Prop :=
  done ++ inside <+: table → (∀ frame ∈ frames, frame < done.length) →
    Moves style frames (bindingsFrom 0 done) steps (bindingsFrom 0 (done ++ inside)) plain

namespace Follows

variable {table : List (List String)} {style : Style} {frames outer : List Nat} {frame : Nat}
  {done first second : List (List String)} {steps more plain plainMore : List Step}

theorem of_moves
    (moves : Moves style frames (bindingsFrom 0 done) steps (bindingsFrom 0 done) plain) :
    Follows table style frames done [] steps plain := by
  intro _ _
  rwa [List.append_nil]

theorem append (left : Follows table style frames done first steps plain)
    (right : Follows table style frames (done ++ first) second more plainMore) :
    Follows table style frames done (first ++ second) (steps ++ more) (plain ++ plainMore) := by
  intro placed opened
  rw [← List.append_assoc] at placed ⊢
  refine (left ((List.prefix_append _ _).trans placed) opened).append (right placed ?_)
  intro frame member
  have bound := opened frame member
  rw [List.length_append]
  omega

theorem text (content : String) :
    Follows table style frames done [] [.text content] [.text content] :=
  of_moves (Moves.text content)

theorem newline : Follows table style frames done [] [.newline] [.newline] :=
  of_moves Moves.newline

theorem before (start : Follows table style frames done [] steps plain)
    (rest : Follows table style frames done second more plainMore) :
    Follows table style frames done second (steps ++ more) (plain ++ plainMore) := by
  have rest' : Follows table style frames (done ++ []) second more plainMore := by
    rwa [List.append_nil]
  exact start.append rest'

theorem after (start : Follows table style frames done first steps plain)
    (rest : Follows table style frames (done ++ first) [] more plainMore) :
    Follows table style frames done first (steps ++ more) (plain ++ plainMore) := by
  simpa using start.append rest

theorem parenthesized (inside : Follows table style frames done first steps plain) :
    Follows table style frames done first (Freshen.parenthesized steps)
      (Freshen.parenthesized plain) :=
  ((text "(").before inside).after (text ")")

theorem refer (name : String) :
    Follows table style frames done [] [.refer name]
      [.refer (Occurrence.freshName table style.separator ⟨name, frames, false⟩)] := by
  intro placed opened
  rw [List.append_nil] at placed ⊢
  have moves : Moves style frames (bindingsFrom 0 done) [.refer name] _ _ := Moves.refer name
  have agree : binder? (bindingsFrom 0 done) frames name =
      frames.find? fun frame => name ∈ frameNames table frame := by
    apply List.find?_congr
    intro frame member
    simp only [mem_bindings_iff placed (opened frame member)]
  rw [agree] at moves
  rw [Occurrence.freshName, Occurrence.binder, if_neg (by simp)]
  cases found : frames.find? fun frame => name ∈ frameNames table frame with
  | none =>
      rw [found] at moves
      exact moves
  | some frame =>
      rw [found] at moves
      have inside : (frame, name) ∈ bindingsFrom 0 done := by
        rw [mem_bindings_iff placed (opened frame (List.mem_of_find?_eq_some found))]
        simpa using List.find?_some found
      simp only [mintedFor_declared (bindingsFrom_placed placed) inside] at moves
      exact moves

theorem declare {name : String} (declared : name ∈ frameNames table frame) :
    Follows table style (frame :: outer) done [] [.declare name]
      [.declare (Occurrence.freshName table style.separator ⟨name, frame :: outer, true⟩)] := by
  intro placed opened
  rw [List.append_nil] at placed ⊢
  have inside : (frame, name) ∈ bindingsFrom 0 done := by
    rwa [mem_bindings_iff placed (opened frame List.mem_cons_self)]
  have moves : Moves style (frame :: outer) (bindingsFrom 0 done) [.declare name] _ _ :=
    Moves.declare name
  rw [register_of_mem inside, mintedFor_declared (bindingsFrom_placed placed) inside] at moves
  exact moves

theorem reject (cause : Unsupported) :
    Follows table style frames done first [.reject cause] [.reject cause] :=
  fun _ _ => Moves.reject cause

theorem braced (inside : Follows table style frames done first steps plain) :
    Follows table style frames done first [.braced steps] [.braced plain] :=
  fun placed opened => (inside placed opened).braced

/-- A frame opens with no names, and has all of them when its steps are done. -/
theorem framed {names : List String}
    (inside : done ++ names :: first <+: table →
      (∀ number ∈ done.length :: frame :: outer, number < done.length + 1) →
      Moves style (done.length :: frame :: outer) (bindingsFrom 0 (done ++ [[]])) steps
        (bindingsFrom 0 (done ++ names :: first)) plain) :
    Follows table style (frame :: outer) done (names :: first) [.framed steps]
      [.framed plain] := by
  intro placed opened
  have bounds : ∀ number ∈ done.length :: frame :: outer, number < done.length + 1 := by
    intro number member
    rcases List.mem_cons.mp member with rfl | member
    · omega
    · have bound := opened number member
      omega
  have moves := inside placed bounds
  rw [bindingsFrom_opened] at moves
  apply moves.framed
  · intro member
    have bound := opened _ member
    omega
  · intro name
    simp [mem_bindingsFrom, frameNames]

end Follows

/-! Renaming keeps what the writer looks at besides names. -/

section Shape

variable (rename : Occurrence → String) (frames : List Nat) (next : Nat)

@[simp] theorem Expr.isSelfDelimited_renamed (expr : Expr) :
    (expr.renamed rename frames next).isSelfDelimited = expr.isSelfDelimited := by
  cases expr <;> simp only [Expr.renamed, Expr.isSelfDelimited]

@[simp] theorem Expr.isIdent_renamed (expr : Expr) :
    (expr.renamed rename frames next).isIdent = expr.isIdent := by
  cases expr <;> simp only [Expr.renamed, Expr.isIdent]

@[simp] theorem Expr.isUnary_renamed (expr : Expr) :
    (expr.renamed rename frames next).isUnary = expr.isUnary := by
  cases expr <;> simp only [Expr.renamed, Expr.isUnary]

@[simp] theorem Stmt.isBlock_renamed (stmt : Stmt) :
    (stmt.renamed rename frames next).isBlock = stmt.isBlock := by
  cases stmt <;> simp only [Stmt.renamed, Stmt.isBlock]

@[simp] theorem renamedStmts_isEmpty (body : List Stmt) :
    (renamedStmts rename frames next body).isEmpty = body.isEmpty := by
  cases body <;> simp [renamedStmts]

theorem Stmt.hoistedName_renamed (stmt : Stmt) :
    (stmt.renamed rename frames next).hoistedName =
      stmt.hoistedName.map fun name => rename ⟨name, frames, true⟩ := by
  cases stmt with
  | var kind decls span =>
      rcases decls with _ | ⟨⟨name, init, span⟩, rest⟩ <;>
        simp [Stmt.renamed, renamedDecls, Stmt.hoistedName, Declarator.name]
  | _ => simp [Stmt.renamed, Stmt.hoistedName, renameName]

theorem hoistedNames_renamed (body : List Stmt) :
    hoistedNames (renamedStmts rename frames next body) =
      (hoistedNames body).map fun name => rename ⟨name, frames, true⟩ := by
  induction body generalizing next with
  | nil => rfl
  | cons stmt rest ih =>
      have tail := ih (next + stmt.frames.length)
      simp only [hoistedNames] at tail
      cases hoisted : stmt.hoistedName <;>
        simp [renamedStmts, hoistedNames, Stmt.hoistedName_renamed, hoisted, tail]

end Shape

theorem Stmt.hoistedName_of_not_declaration {stmt : Stmt} (bare : stmt.isDeclaration = false) :
    stmt.hoistedName = none := by
  cases stmt <;> first | rfl | simp [Stmt.isDeclaration] at bare

namespace Follows

variable {table : List (List String)} {style : Style} {frames outer : List Nat} {frame : Nat}
  {done inside : List (List String)} {steps plain : List Step}

theorem asOperand {expr other : Expr} (same : other.isSelfDelimited = expr.isSelfDelimited)
    (follows : Follows table style frames done inside steps plain) :
    Follows table style frames done inside (expr.asOperand steps) (other.asOperand plain) := by
  rw [Expr.asOperand, Expr.asOperand, same]
  split
  · exact follows
  · exact follows.parenthesized

theorem asConstructor {expr other : Expr} (same : other.isIdent = expr.isIdent)
    (follows : Follows table style frames done inside steps plain) :
    Follows table style frames done inside (expr.asConstructor steps)
      (other.asConstructor plain) := by
  rw [Expr.asConstructor, Expr.asConstructor, same]
  split
  · exact follows
  · exact follows.parenthesized

theorem asLeft {expr other : Expr} (op : BinaryOp) (same : other.isUnary = expr.isUnary)
    (follows : Follows table style frames done inside steps plain) :
    Follows table style frames done inside (expr.asLeft op steps) (other.asLeft op plain) := by
  rw [Expr.asLeft, Expr.asLeft, same]
  split
  · exact follows.parenthesized
  · exact follows

theorem body {stmts others : List Stmt} (same : others.isEmpty = stmts.isEmpty)
    (lines : Follows table style frames done inside (lineSteps stmts) (lineSteps others)) :
    Follows table style frames done inside (bodySteps stmts) (bodySteps others) := by
  rw [bodySteps_eq, bodySteps_eq, same]
  cases stmts with
  | nil =>
      have empty : others = [] := by simpa using same
      subst empty
      exact lines.after (text _)
  | cons stmt rest => exact lines.braced

theorem frameNames_opening {names : List String} (placed : done ++ names :: inside <+: table) :
    frameNames table done.length = names := by
  obtain ⟨rest, rfl⟩ := placed
  simp [frameNames]

/-- Parameters and hoisted names are declared before the body of a function is written. -/
theorem functionRest {seen all : List String} {params : List Param} {body renamedBody : List Stmt}
    (whole : all = seen ++ params.map Param.name ++ hoistedNames body)
    (hoisted : (hoistedNames renamedBody).length = (hoistedNames body).length)
    (written : Follows table style (done.length :: frames) (done ++ [all.eraseDups]) inside steps
      plain)
    (placed : done ++ all.eraseDups :: inside <+: table)
    (opened : ∀ number ∈ done.length :: frames, number < done.length + 1) :
    Moves style (done.length :: frames) (bindingsFrom 0 (done ++ [seen.eraseDups]))
      (Freshen.parenthesized (paramSteps params) ++ [.text " "] ++ hoistSteps body ++ steps)
      (bindingsFrom 0 (done ++ all.eraseDups :: inside))
      (Freshen.parenthesized (paramSteps (renameParams (Occurrence.freshName table style.separator)
        (done.length :: frames) params)) ++ [.text " "] ++ hoistSteps renamedBody ++ plain) := by
  rw [List.append_cons done all.eraseDups inside] at placed ⊢
  have start : done ++ [all.eraseDups] <+: table := (List.prefix_append _ _).trans placed
  have part : seen ++ params.map Param.name <+: all := by
    rw [whole]
    exact List.prefix_append _ _
  have hoist : Moves style (done.length :: frames) _ (hoistSteps body) _ _ :=
    Moves.hoistOpening body (hoistedNames renamedBody) (seen ++ params.map Param.name) hoisted
  rw [← whole] at hoist
  have bounds : ∀ number ∈ done.length :: frames, number < (done ++ [all.eraseDups]).length := by
    simpa using opened
  exact (((Moves.paramsOpening params seen start part).parenthesized.append (Moves.text " ")).append
    hoist).append (written placed bounds)

theorem functionFrame {seen all : List String} {params : List Param} {body renamedBody : List Stmt}
    {head plainHead : List Step} (whole : all = seen ++ params.map Param.name ++ hoistedNames body)
    (hoisted : (hoistedNames renamedBody).length = (hoistedNames body).length)
    (start : done ++ [all.eraseDups] <+: table →
      Moves style (done.length :: frame :: outer) (bindingsFrom 0 (done ++ [[]])) head
        (bindingsFrom 0 (done ++ [seen.eraseDups])) plainHead)
    (written : (∀ name ∈ hoistedNames body, name ∈ frameNames table done.length) →
      Follows table style (done.length :: frame :: outer) (done ++ [all.eraseDups]) inside steps
        plain) :
    Follows table style (frame :: outer) done (all.eraseDups :: inside)
      [.framed (head ++
        (Freshen.parenthesized (paramSteps params) ++ [.text " "] ++ hoistSteps body ++ steps))]
      [.framed (plainHead ++
        (Freshen.parenthesized (paramSteps (renameParams
          (Occurrence.freshName table style.separator) (done.length :: frame :: outer) params)) ++
          [.text " "] ++ hoistSteps renamedBody ++ plain))] := by
  apply framed
  intro placed opened
  have declared : ∀ name ∈ hoistedNames body, name ∈ frameNames table done.length := by
    intro name member
    rw [frameNames_opening placed, List.mem_eraseDups, whole]
    exact List.mem_append_right _ member
  have placedHead : done ++ [all.eraseDups] <+: table := by
    rw [List.append_cons] at placed
    exact (List.prefix_append _ _).trans placed
  exact (start placedHead).append (functionRest whole hoisted (written declared) placed opened)

theorem declaredFunctionFrame {all : List String} {params : List Param}
    {body renamedBody : List Stmt} (whole : all = params.map Param.name ++ hoistedNames body)
    (hoisted : (hoistedNames renamedBody).length = (hoistedNames body).length)
    (written : (∀ name ∈ hoistedNames body, name ∈ frameNames table done.length) →
      Follows table style (done.length :: frame :: outer) (done ++ [all.eraseDups]) inside steps
        plain) :
    Follows table style (frame :: outer) done (all.eraseDups :: inside)
      [.framed
        (Freshen.parenthesized (paramSteps params) ++ [.text " "] ++ hoistSteps body ++ steps)]
      [.framed
        (Freshen.parenthesized (paramSteps (renameParams
          (Occurrence.freshName table style.separator) (done.length :: frame :: outer) params)) ++
          [.text " "] ++ hoistSteps renamedBody ++ plain)] := by
  have nothing : done ++ [all.eraseDups] <+: table →
      Moves style (done.length :: frame :: outer) (bindingsFrom 0 (done ++ [[]])) []
        (bindingsFrom 0 (done ++ [[].eraseDups])) [] := fun _ => Moves.nil
  simpa only [List.nil_append] using functionFrame (by simpa using whole) hoisted nothing written

end Follows

end Freshen

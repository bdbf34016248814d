import Freshen.Proofs.Balance
import Freshen.Proofs.Scoping

/-!
Which names a list of statements declares in the frame it belongs to. Besides what is hoisted these
are the declarations that stand as a branch of an `if` or as the body of a loop: they get their
binding only when they are written.
-/

namespace Freshen

def Writer.binds (writer : Writer) (name : String) : Prop :=
  writer.context.chain.current.get? name ≠ none

theorem Frame.get?_of_mem {frame : Frame} {name : String} {minted : Minted}
    (member : (name, minted) ∈ frame.bindings) : frame.get? name ≠ none := by
  intro absent
  rw [Frame.get?, List.lookup_eq_none_iff] at absent
  simpa using absent (name, minted) member

theorem Writer.Keeps.binds {before after : Writer} (keeps : before.Keeps after) {name : String}
    (bound : before.binds name) : after.binds name :=
  fun absent => bound (keeps.context.unbound absent)

theorem Writer.Keeps.current_eq {before after : Writer} (keeps : before.Keeps after)
    (bound : ∀ name, after.binds name → before.binds name) :
    after.context.chain.current = before.context.chain.current := by
  obtain ⟨gained, bindings, new⟩ := keeps.context.gained
  have nothing : gained = [] := by
    apply List.eq_nil_iff_forall_not_mem.mpr
    intro binding member
    have present : binding ∈ after.context.chain.current.bindings := by
      rw [bindings]
      exact List.mem_append_right _ member
    exact bound binding.1 (Frame.get?_of_mem present) (new binding member).1
  rw [nothing, List.append_nil] at bindings
  have parent := keeps.context.parent
  generalize after.context.chain.current = current at bindings parent ⊢
  generalize before.context.chain.current = origin at bindings parent ⊢
  cases current
  cases origin
  simp only at bindings parent
  rw [bindings, parent]

theorem Writer.binds_declare (writer : Writer) (name : String) :
    (writer.declare name).2.binds name := by
  rw [Writer.binds, Writer.declare, Context.declare]
  cases bound : writer.context.chain.current.get? name with
  | some minted => simp [bound]
  | none =>
      have listed : (name, (⟨name, writer.context.count⟩ : Minted)) ∈
          (writer.context.chain.current.bind name ⟨name, writer.context.count⟩).bindings :=
        List.mem_append_right _ (List.mem_singleton_self _)
      exact Frame.get?_of_mem listed

theorem Writer.of_binds_declare {writer : Writer} {name other : String}
    (bound : (writer.declare name).2.binds other) : writer.binds other ∨ other = name := by
  rw [Writer.binds, Writer.declare, Context.declare] at bound
  cases before : writer.context.chain.current.get? name with
  | some minted =>
      rw [before] at bound
      exact Or.inl bound
  | none =>
      rw [before] at bound
      by_cases same : other = name
      · exact Or.inr same
      · refine Or.inl fun absent => bound ?_
        have differ : (other == name) = false := by simpa using same
        rw [Frame.get?] at absent
        simp [Context.fresh, Chain.bind, Frame.bind, Frame.get?, List.lookup_append, absent,
          List.lookup_cons, differ]

namespace Step

mutual

def declared : Step → List String
  | bind name | declare name => [name]
  | braced body => declaredAll body
  | _ => []

def declaredAll : List Step → List String
  | [] => []
  | step :: rest => declared step ++ declaredAll rest

end

/-! Steps bind what they declare in the current frame, and nothing else, however they end. -/

mutual

theorem declared_of_binds (step : Step) {writer : Writer} {name : String}
    (bound : (Written.writer (run step writer)).binds name) :
    writer.binds name ∨ name ∈ declared step := by
  match step with
  | text _ | newline | reject _ => exact Or.inl bound
  | bind label =>
      rw [declared, List.mem_singleton]
      exact Writer.of_binds_declare bound
  | declare label =>
      rw [declared, List.mem_singleton]
      exact Writer.of_binds_declare bound
  | refer label =>
      have same : (writer.refer label).context = writer.context := by
        rw [Writer.refer]
        split
        · rfl
        · rfl
      have after : (writer.refer label).binds name := bound
      rw [Writer.binds, same] at after
      exact Or.inl after
  | framed body =>
      have keeps := runAll_keeps body writer.enter
      rw [run] at bound
      cases ran : runAll body writer.enter with
      | ok _ after | error _ after =>
          rw [ran] at bound keeps
          have inside : writer.enter.Keeps after := keeps
          have left : after.exit.binds name := bound
          rw [Writer.binds, inside.exit_context] at left
          exact Or.inl left
  | braced body =>
      have inside {after : Writer} (ran : Written.writer (runAll body writer.openBrace) = after)
          (bound : after.binds name) : writer.binds name ∨ name ∈ declaredAll body := by
        subst ran
        have origin : writer.openBrace.binds name ∨ name ∈ declaredAll body :=
          declaredAll_of_binds body bound
        exact origin
      rw [run] at bound
      rw [declared]
      cases ran : runAll body writer.openBrace with
      | ok _ after | error _ after =>
          rw [ran] at bound
          exact inside (congrArg Written.writer ran) bound

theorem declaredAll_of_binds (steps : List Step) {writer : Writer} {name : String}
    (bound : (Written.writer (runAll steps writer)).binds name) :
    writer.binds name ∨ name ∈ declaredAll steps := by
  match steps with
  | [] => exact Or.inl bound
  | step :: rest =>
      rw [runAll] at bound
      rw [declaredAll, List.mem_append]
      have start {after : Writer} (ran : Written.writer (run step writer) = after)
          (bound : after.binds name) :
          writer.binds name ∨ name ∈ declared step ∨ name ∈ declaredAll rest := by
        subst ran
        exact (declared_of_binds step bound).imp_right Or.inl
      cases ran : run step writer with
      | ok _ middle =>
          rw [ran] at bound
          rcases declaredAll_of_binds rest bound with bound | later
          · exact start (congrArg Written.writer ran) bound
          · exact Or.inr (Or.inr later)
      | error cause middle =>
          rw [ran] at bound
          exact start (congrArg Written.writer ran) bound

end

mutual

theorem binds_declared (step : Step) {writer after : Writer} (ran : run step writer = .ok () after)
    {name : String} (declares : name ∈ declared step) : after.binds name := by
  match step with
  | text _ | newline | reject _ | refer _ | framed _ => simp [declared] at declares
  | bind label | declare label =>
      rw [declared, List.mem_singleton] at declares
      subst declares
      cases ran
      exact writer.binds_declare name
  | braced body =>
      rw [declared] at declares
      rw [run] at ran
      cases inside : runAll body writer.openBrace with
      | ok _ middle =>
          rw [inside] at ran
          cases ran
          have bound : middle.binds name := binds_declaredAll body inside declares
          exact bound
      | error cause middle =>
          rw [inside] at ran
          cases ran

theorem binds_declaredAll (steps : List Step) {writer after : Writer}
    (ran : runAll steps writer = .ok () after) {name : String}
    (declares : name ∈ declaredAll steps) : after.binds name := by
  match steps with
  | [] => simp [declaredAll] at declares
  | step :: rest =>
      rw [runAll] at ran
      cases start : run step writer with
      | ok _ middle =>
          rw [start] at ran
          rw [declaredAll, List.mem_append] at declares
          rcases declares with here | later
          · have keeps := runAll_keeps rest middle
            have finish : runAll rest middle = .ok () after := ran
            rw [finish] at keeps
            have kept : middle.Keeps after := keeps
            exact kept.binds (binds_declared step start here)
          · exact binds_declaredAll rest ran later
      | error cause middle =>
          rw [start] at ran
          cases ran

end

attribute [simp] declared declaredAll

@[simp] theorem declaredAll_append (first second : List Step) :
    declaredAll (first ++ second) = declaredAll first ++ declaredAll second := by
  induction first with
  | nil => rfl
  | cons step rest ih => simp [declaredAll, ih]

@[simp] theorem declaredAll_parenthesized (steps : List Step) :
    declaredAll (parenthesized steps) = declaredAll steps := by
  simp [parenthesized]

end Step

open Step

section Operand

variable {steps : List Step}

@[simp] theorem declaredAll_asOperand (expr : Expr) :
    declaredAll (expr.asOperand steps) = declaredAll steps := by
  rw [Expr.asOperand]
  split <;> simp

@[simp] theorem declaredAll_asConstructor (expr : Expr) :
    declaredAll (expr.asConstructor steps) = declaredAll steps := by
  rw [Expr.asConstructor]
  split <;> simp

@[simp] theorem declaredAll_asLeft (expr : Expr) (op : BinaryOp) :
    declaredAll (expr.asLeft op steps) = declaredAll steps := by
  rw [Expr.asLeft]
  split <;> simp

end Operand

@[simp] theorem declaredAll_functionHead (name : Option String) :
    declaredAll (functionHead name) = name.toList := by
  cases name <;> rfl

@[simp] theorem declaredAll_propertyName (name : PropertyName) : declaredAll name.steps = [] := by
  cases name <;> rfl

/-! Expressions declare nothing in the frame they stand in: functions have frames of their own. -/

mutual

theorem Expr.declaredAll_steps (expr : Expr) : declaredAll expr.steps = [] := by
  match expr with
  | .null _ | .bool _ _ | .number _ _ | .string _ _ | .regex _ _ _ | .ident _ _
  | .unsupported _ _ =>
      simp only [Expr.steps]
      rfl
  | .array elements _ => simp [Expr.steps, declaredAll_elements elements]
  | .object properties _ => simp [Expr.steps, declaredAll_properties properties]
  | .function _ _ _ _ _ | .arrow _ _ _ _ | .arrowBlock _ _ _ _ => simp [Expr.steps]
  | .unary _ arg _ | .update _ true arg _ | .update _ false arg _ | .member arg _ _ =>
      simp [Expr.steps, arg.declaredAll_steps]
  | .binary _ left right _ | .assign _ left right _ | .index left right _ =>
      simp [Expr.steps, left.declaredAll_steps, right.declaredAll_steps]
  | .conditional test consequent alternate _ =>
      simp [Expr.steps, test.declaredAll_steps, consequent.declaredAll_steps,
        alternate.declaredAll_steps]
  | .sequence exprs _ => simp [Expr.steps, declaredAll_exprs exprs]
  | .call callee args _ | .new callee args _ =>
      simp [Expr.steps, callee.declaredAll_steps, declaredAll_exprs args]

theorem declaredAll_exprs (exprs : List Expr) : declaredAll (exprsSteps exprs) = [] := by
  match exprs with
  | [] => simp [exprsSteps]
  | [expr] => simp [exprsSteps, expr.declaredAll_steps]
  | expr :: following :: rest =>
      rw [exprsSteps_cons_cons]
      simp [expr.declaredAll_steps, declaredAll_exprs (following :: rest)]

theorem declaredAll_elements (elements : List (Option Expr)) :
    declaredAll (elementSteps elements) = [] := by
  match elements with
  | [] | [none] => simp [elementSteps]
  | [some expr] => simp [elementSteps, expr.declaredAll_steps]
  | none :: following :: rest =>
      rw [elementSteps_hole_cons]
      simp [declaredAll_elements (following :: rest)]
  | some expr :: following :: rest =>
      rw [elementSteps_cons_cons]
      simp [expr.declaredAll_steps, declaredAll_elements (following :: rest)]

theorem declaredAll_properties (properties : List Property) :
    declaredAll (propertySteps properties) = [] := by
  match properties with
  | [] => simp [propertySteps]
  | [property] => simp [propertySteps, property.declaredAll_steps]
  | property :: following :: rest =>
      rw [propertySteps_cons_cons]
      simp [property.declaredAll_steps, declaredAll_properties (following :: rest)]

theorem Property.declaredAll_steps (property : Property) : declaredAll property.steps = [] := by
  match property with
  | .named name value _ => simp [Property.steps, value.declaredAll_steps]
  | .computed key value _ =>
      simp [Property.steps, key.declaredAll_steps, value.declaredAll_steps]

end

mutual

/-- The names that a statement declares in the frame it stands in. Blocks, functions and `for` loops
have frames of their own. -/
def Stmt.ownNames : Stmt → List String
  | .cond _ consequent alternate _ => consequent.ownNames ++ alternateOwnNames alternate
  | .whileLoop _ body _ | .doWhile body _ _ => body.ownNames
  | .var _ decls _ => (decls.head?.map Declarator.name).toList
  | .function name _ _ _ _ => name.toList
  | _ => []

def alternateOwnNames : Option Stmt → List String
  | none => []
  | some stmt => stmt.ownNames

end

def ownNames (body : List Stmt) : List String := body.flatMap Stmt.ownNames

theorem Stmt.hoistedName_own {stmt : Stmt} {name : String}
    (hoisted : stmt.hoistedName = some name) : name ∈ stmt.ownNames := by
  cases stmt with
  | var kind decls span =>
      rw [Stmt.hoistedName] at hoisted
      rw [Stmt.ownNames, hoisted]
      exact List.mem_singleton_self name
  | function label params body inner span =>
      rw [Stmt.hoistedName] at hoisted
      rw [Stmt.ownNames, hoisted]
      exact List.mem_singleton_self name
  | _ => cases hoisted

theorem hoistedNames_own (body : List Stmt) : hoistedNames body ⊆ ownNames body := by
  intro name member
  obtain ⟨stmt, inside, hoisted⟩ := List.mem_filterMap.mp member
  exact List.mem_flatMap.mpr ⟨stmt, inside, Stmt.hoistedName_own hoisted⟩

theorem declaredAll_decls (kind : DeclKind) (span : Span) (decls : List Declarator) :
    declaredAll (declSteps kind span decls) = (decls.head?.map Declarator.name).toList := by
  rcases decls with _ | ⟨⟨name, _ | init, _⟩, _⟩
  · simp only [declSteps]
    rfl
  · simp only [declSteps]
    rfl
  · simp only [declSteps, declaredAll_append, init.declaredAll_steps, List.append_nil]
    rfl

theorem Stmt.declaredAll_steps (stmt : Stmt) : declaredAll stmt.steps = stmt.ownNames := by
  match stmt with
  | .var kind decls span =>
      simp [Stmt.steps, Stmt.ownNames, declaredAll_decls]
  | .function name _ _ _ _ =>
      cases name <;> simp [Stmt.steps, Stmt.ownNames]
  | .block _ _ => simp [Stmt.steps, Stmt.ownNames]
  | .loop _ _ _ _ _ =>
      rw [Stmt.steps_loop]
      simp only [Stmt.ownNames, declaredAll, declared, List.append_nil]
  | .cond test consequent none _ =>
      simp [Stmt.steps, Stmt.ownNames, alternateOwnNames, test.declaredAll_steps,
        consequent.declaredAll_steps]
  | .cond test consequent (some alternate) _ =>
      have branch : declaredAll (if consequent.isBlock then consequent.steps
          else [.braced ([.newline] ++ consequent.steps)]) = consequent.ownNames := by
        split <;> simp [consequent.declaredAll_steps]
      simp only [Stmt.steps, Stmt.ownNames, alternateOwnNames, declaredAll_append, branch,
        test.declaredAll_steps, alternate.declaredAll_steps, declaredAll, declared,
        List.append_nil, List.nil_append]
  | .whileLoop test body _ | .doWhile body test _ =>
      simp [Stmt.steps, Stmt.ownNames, test.declaredAll_steps, body.declaredAll_steps]
  | .exitLoop _ | .nextLoop _ | .empty _ | .ret none _ => simp [Stmt.steps, Stmt.ownNames]
  | .ret (some arg) _ | .throw arg _ | .expr arg _ =>
      simp [Stmt.steps, Stmt.ownNames, arg.declaredAll_steps]
  | .unsupported _ _ =>
      simp only [Stmt.steps, Stmt.ownNames]
      rfl

theorem declaredAll_lines (body : List Stmt) : declaredAll (lineSteps body) = ownNames body := by
  induction body with
  | nil => rfl
  | cons stmt rest ih => simp [lineSteps, ownNames, stmt.declaredAll_steps, ih]

theorem declaredAll_body (body : List Stmt) : declaredAll (bodySteps body) = ownNames body := by
  rw [bodySteps_eq]
  cases body with
  | nil => rfl
  | cons stmt rest => simp [declaredAll_lines]

theorem Program.declaredAll_lines (body : List Stmt) :
    declaredAll (body.flatMap fun stmt => stmt.steps ++ [.newline]) = ownNames body := by
  induction body with
  | nil => rfl
  | cons stmt rest ih =>
      rw [List.flatMap_cons, declaredAll_append, ih]
      simp [ownNames, stmt.declaredAll_steps]

theorem Step.runAll_hoistSteps (body : List Stmt) (writer : Writer) :
    runAll (hoistSteps body) writer =
      .ok () { writer with context := writer.context.hoist body } := by
  rw [hoistSteps, Context.hoist]
  induction body.filterMap Stmt.hoistedName generalizing writer with
  | nil => rfl
  | cons name rest ih =>
      rw [List.map_cons, runAll, run]
      exact ih (writer.declare name).2

theorem Writer.binds_hoist (writer : Writer) (body : List Stmt) {name : String} :
    ({ writer with context := writer.context.hoist body } : Writer).binds name ↔
      writer.binds name ∨ name ∈ hoistedNames body := by
  have ran := Step.runAll_hoistSteps body writer
  have names : declaredAll (hoistSteps body) = hoistedNames body := by
    rw [hoistSteps, ← hoistedNames]
    induction hoistedNames body with
    | nil => rfl
    | cons first rest ih => simpa [declaredAll, declared] using ih
  constructor
  · intro bound
    have origin := @declaredAll_of_binds (hoistSteps body) writer name
    rw [ran, names] at origin
    exact origin bound
  · rintro (bound | hoisted)
    · have keeps := runAll_keeps (hoistSteps body) writer
      rw [ran] at keeps
      exact Writer.Keeps.binds keeps bound
    · rw [← names] at hoisted
      exact binds_declaredAll _ ran hoisted

/-- Writing statements after they are hoisted adds to the frame exactly what else they declare in
it. -/
theorem writing_adds_ownNames (writer : Writer) (body : List Stmt) {lines : List Step}
    (declares : declaredAll lines = ownNames body) :
    let hoisted : Writer := { writer with context := writer.context.hoist body }
    let ended := runAll (hoistSteps body ++ lines) writer
    ended = runAll lines hoisted ∧
      ((∀ name ∈ ownNames body, writer.binds name ∨ name ∈ hoistedNames body) →
        (Written.writer ended).context.chain.current = hoisted.context.chain.current) ∧
      ∀ after, ended = .ok () after →
        ∀ name, after.binds name ↔ writer.binds name ∨ name ∈ ownNames body := by
  intro hoisted ended
  have same : ended = runAll lines hoisted := by
    simp only [ended, runAll_append, runAll_hoistSteps, hoisted]
  have keeps := runAll_keeps lines hoisted
  -- broken off or not, the lines bind nothing that they do not declare
  have origin {name : String} (bound : (Written.writer ended).binds name) :
      hoisted.binds name ∨ name ∈ ownNames body := by
    rw [same] at bound
    rw [← declares]
    exact declaredAll_of_binds lines bound
  refine ⟨same, ?_, ?_⟩
  · intro known
    rw [same]
    apply keeps.current_eq
    intro name bound
    rw [← same] at bound
    rcases origin bound with bound | own
    · exact bound
    · exact (writer.binds_hoist body).mpr (known name own)
  · intro after ran name
    rw [same] at ran
    rw [same, ran] at origin
    rw [ran] at keeps
    constructor
    · intro bound
      rcases origin bound with bound | own
      · rcases (writer.binds_hoist body).mp bound with bound | hoist
        · exact Or.inl bound
        · exact Or.inr (hoistedNames_own body hoist)
      · exact Or.inr own
    · rintro (bound | own)
      · exact Writer.Keeps.binds keeps ((writer.binds_hoist body).mpr (Or.inl bound))
      · rw [← declares] at own
        exact binds_declaredAll lines ran own

end Freshen

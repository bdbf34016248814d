import Freshen.Proofs.Emission
import Freshen.Proofs.Fragments

/-!
The parts of a program that are written, and that the writing of a program comes to each of them.
-/

namespace Freshen

namespace Fragment

/-- The parts of a fragment that are written: of a declaration group, the first declarator. -/
def written : Fragment → List Fragment
  | group decls => (decls.take 1).map declarator
  | fragment => fragment.children

def Writes : Fragment → Fragment → Prop :=
  Relation.ReflTransGen fun fragment child => child ∈ fragment.written

/-- The steps of a fragment. Those of a declaration group depend on where it stands. -/
inductive Drafted : Fragment → List Step → Prop
  | program (whole : Program) : Drafted (.program whole) whole.steps
  | stmt (inner : Stmt) : Drafted (.stmt inner) inner.steps
  | expr (inner : Expr) : Drafted (.expr inner) inner.steps
  | group (kind : DeclKind) (span : Span) (decls : List Declarator) :
    Drafted (.group decls) (declSteps kind span decls)
  | declarator (kind : DeclKind) (span : Span) (inner : Declarator) :
    Drafted (.declarator inner) (declSteps kind span [inner])
  | property (inner : Property) : Drafted (.property inner) inner.steps

def names : Fragment → List String
  | expr (.ident name _) | expr (.member _ name _) => [name]
  | expr (.function name params _ _ _) | stmt (.function name params _ _ _) =>
    name.toList ++ params.map Param.name
  | expr (.arrow params _ _ _) | expr (.arrowBlock params _ _ _) => params.map Param.name
  | declarator inner => [inner.name]
  | property (.named (.ident name) _ _) => [name]
  | _ => []

end Fragment

namespace Step.Within

variable {part steps : List Step}

theorem framed_singleton (within : Within part steps) : Within part [.framed steps] :=
  within.framed [] []

theorem braced_singleton (within : Within part steps) : Within part [.braced steps] :=
  within.braced [] []

theorem asOperand (expr : Expr) (within : Within part steps) :
    Within part (expr.asOperand steps) := by
  rw [Expr.asOperand]
  split
  · exact within
  · exact within.parenthesized

theorem asConstructor (expr : Expr) (within : Within part steps) :
    Within part (expr.asConstructor steps) := by
  rw [Expr.asConstructor]
  split
  · exact within
  · exact within.parenthesized

theorem asLeft (expr : Expr) (op : BinaryOp) (within : Within part steps) :
    Within part (expr.asLeft op steps) := by
  rw [Expr.asLeft]
  split
  · exact within.parenthesized
  · exact within

theorem divided {item : List Step} {items : List (List Step)} (member : item ∈ items) :
    Within item (Freshen.divided items) := by
  induction items with
  | nil => cases member
  | cons first rest ih =>
      cases rest with
      | nil =>
          obtain rfl := List.mem_singleton.mp member
          exact refl _
      | cons second rest =>
          rw [divided_cons_cons]
          rcases List.mem_cons.mp member with rfl | later
          · exact ((refl _).left _).left _
          · exact (ih later).right _

theorem exprs {expr : Expr} {exprs : List Expr} (member : expr ∈ exprs) :
    Within expr.steps (exprsSteps exprs) := by
  rw [exprsSteps_eq_divided]
  exact divided (List.mem_map_of_mem member)

theorem properties {property : Property} {properties : List Property}
    (member : property ∈ properties) : Within property.steps (propertySteps properties) := by
  rw [propertySteps_eq_divided]
  exact divided (List.mem_map_of_mem member)

theorem elements {expr : Expr} {elements : List (Option Expr)} (member : some expr ∈ elements) :
    Within expr.steps (elementSteps elements) := by
  induction elements with
  | nil => cases member
  | cons first rest ih =>
      cases rest with
      | nil =>
          obtain rfl := List.mem_singleton.mp member
          rw [elementSteps]
          exact refl _
      | cons second rest =>
          cases first with
          | none =>
              rw [elementSteps_hole_cons]
              exact (ih (by simpa using member)).right _
          | some first =>
              rw [elementSteps_cons_cons]
              rcases List.mem_cons.mp member with same | later
              · cases same
                exact ((refl _).left _).left _
              · exact (ih later).right _

theorem lines {stmt : Stmt} {body : List Stmt} (member : stmt ∈ body) :
    Within stmt.steps (lineSteps body) := by
  induction body with
  | nil => cases member
  | cons first rest ih =>
      rw [lineSteps]
      rcases List.mem_cons.mp member with rfl | later
      · exact ((refl _).right _).left _
      · exact (ih later).right _

theorem body {stmt : Stmt} {body : List Stmt} (member : stmt ∈ body) :
    Within stmt.steps (bodySteps body) := by
  rw [bodySteps_eq, if_neg (by cases member <;> simp)]
  exact (lines member).braced_singleton

theorem optional {expr : Expr} {optional : Option Expr} (member : expr ∈ optional) :
    Within expr.steps (optionalSteps optional) := by
  cases member
  exact (refl _).right _

end Step.Within

namespace Fragment

open Step

variable {child : Fragment}

theorem within_expr {inner : Expr} (below : child ∈ inner.fragments) :
    ∃ part, child.Drafted part ∧ Within part inner.steps := by
  cases inner with
  | null | bool | number | string | regex | ident | unsupported => cases below
  | array elements span =>
      obtain ⟨expr, member, rfl⟩ := List.mem_map.mp below
      refine ⟨_, .expr expr, ?_⟩
      rw [Expr.steps]
      exact ((Within.elements (List.reduceOption_mem_iff.mp member)).right _).left _
  | object properties span =>
      obtain ⟨property, member, rfl⟩ := List.mem_map.mp below
      refine ⟨_, .property property, ?_⟩
      rw [Expr.steps]
      exact ((Within.properties member).right _).left _
  | function name params body inner span =>
      obtain ⟨stmt, member, rfl⟩ := List.mem_map.mp below
      refine ⟨_, .stmt stmt, ?_⟩
      rw [Expr.steps]
      exact ((Within.body member).right _).framed_singleton.parenthesized
  | arrowBlock params body inner span =>
      obtain ⟨stmt, member, rfl⟩ := List.mem_map.mp below
      refine ⟨_, .stmt stmt, ?_⟩
      rw [Expr.steps]
      exact ((Within.body member).right _).framed_singleton.parenthesized
  | arrow params result inner span =>
      obtain rfl := List.mem_singleton.mp below
      refine ⟨_, .expr result, ?_⟩
      rw [Expr.steps]
      exact (((Within.refl _).right _).left _).framed_singleton.parenthesized
  | unary op arg span =>
      obtain rfl := List.mem_singleton.mp below
      refine ⟨_, .expr arg, ?_⟩
      rw [Expr.steps]
      exact (Within.refl _).parenthesized.right _
  | binary op left right span =>
      rw [Expr.steps]
      rcases List.mem_cons.mp below with rfl | below
      · exact ⟨_, .expr left,
          ((((Within.refl _).asLeft left op).left _).left _).parenthesized⟩
      · obtain rfl := List.mem_singleton.mp below
        exact ⟨_, .expr right, ((Within.refl _).right _).parenthesized⟩
  | assign op target value span =>
      rw [Expr.steps]
      rcases List.mem_cons.mp below with rfl | below
      · exact ⟨_, .expr target, (((Within.refl _).left _).left _).parenthesized⟩
      · obtain rfl := List.mem_singleton.mp below
        exact ⟨_, .expr value, ((Within.refl _).right _).parenthesized⟩
  | update op before arg span =>
      obtain rfl := List.mem_singleton.mp below
      refine ⟨_, .expr arg, ?_⟩
      rw [Expr.steps]
      split
      · exact ((Within.refl _).right _).parenthesized
      · exact ((Within.refl _).left _).parenthesized
  | conditional test consequent alternate span =>
      rw [Expr.steps]
      simp only [Expr.fragments, List.mem_cons, List.not_mem_nil, or_false] at below
      rcases below with rfl | rfl | rfl
      · exact ⟨_, .expr test, (((((Within.refl _).left _).left _).left _).left _).parenthesized⟩
      · exact ⟨_, .expr consequent, ((((Within.refl _).right _).left _).left _).parenthesized⟩
      · exact ⟨_, .expr alternate, ((Within.refl _).right _).parenthesized⟩
  | sequence exprs span =>
      obtain ⟨expr, member, rfl⟩ := List.mem_map.mp below
      refine ⟨_, .expr expr, ?_⟩
      rw [Expr.steps]
      exact (Within.exprs member).parenthesized
  | member object name span =>
      obtain rfl := List.mem_singleton.mp below
      refine ⟨_, .expr object, ?_⟩
      rw [Expr.steps]
      exact ((Within.refl _).asOperand object).left _
  | index object property span =>
      rw [Expr.steps]
      rcases List.mem_cons.mp below with rfl | below
      · exact ⟨_, .expr object, ((((Within.refl _).asOperand object).left _).left _).left _⟩
      · obtain rfl := List.mem_singleton.mp below
        exact ⟨_, .expr property, ((Within.refl _).right _).left _⟩
  | call callee args span =>
      rw [Expr.steps]
      rcases List.mem_cons.mp below with rfl | below
      · exact ⟨_, .expr callee, ((Within.refl _).asOperand callee).left _⟩
      · obtain ⟨expr, member, rfl⟩ := List.mem_map.mp below
        exact ⟨_, .expr expr, (Within.exprs member).parenthesized.right _⟩
  | new callee args span =>
      rw [Expr.steps]
      rcases List.mem_cons.mp below with rfl | below
      · exact ⟨_, .expr callee, (((Within.refl _).asConstructor callee).right _).left _⟩
      · obtain ⟨expr, member, rfl⟩ := List.mem_map.mp below
        exact ⟨_, .expr expr, (Within.exprs member).parenthesized.right _⟩

theorem within_init {init : LoopInit} (below : child ∈ init.fragments) (span : Span) :
    ∃ part, child.Drafted part ∧ Within part (init.steps span) := by
  cases init with
  | absent => cases below
  | decl kind decls =>
      obtain rfl := List.mem_singleton.mp below
      refine ⟨_, .group kind span decls, ?_⟩
      rw [LoopInit.steps]
      exact Within.refl _
  | expr inner =>
      obtain rfl := List.mem_singleton.mp below
      refine ⟨_, .expr inner, ?_⟩
      rw [LoopInit.steps]
      exact Within.refl _

theorem within_stmt {inner : Stmt} (below : child ∈ inner.fragments) :
    ∃ part, child.Drafted part ∧ Within part inner.steps := by
  cases inner with
  | exitLoop | nextLoop | empty | unsupported => cases below
  | var kind decls span =>
      obtain rfl := List.mem_singleton.mp below
      refine ⟨_, .group kind span decls, ?_⟩
      rw [Stmt.steps]
      exact (Within.refl _).left _
  | function name params body inner span =>
      obtain ⟨stmt, member, rfl⟩ := List.mem_map.mp below
      refine ⟨_, .stmt stmt, ?_⟩
      have rest := (Within.body member).right
        (parenthesized (paramSteps params) ++ [.text " "] ++ hoistSteps body)
      cases name with
      | none =>
          rw [Stmt.steps]
          exact ((rest.right _).framed_singleton.parenthesized).left _
      | some name =>
          rw [Stmt.steps]
          exact rest.framed_singleton.right _
  | block body span =>
      obtain ⟨stmt, member, rfl⟩ := List.mem_map.mp below
      refine ⟨_, .stmt stmt, ?_⟩
      rw [Stmt.steps]
      exact ((Within.body member).right _).framed_singleton
  | cond test consequent alternate span =>
      cases alternate with
      | none =>
          rw [Stmt.steps]
          rcases List.mem_cons.mp below with rfl | below
          · exact ⟨_, .expr test, (((Within.refl _).right _).left _).left _⟩
          · obtain rfl := List.mem_singleton.mp below
            exact ⟨_, .stmt consequent, (Within.refl _).right _⟩
      | some alternate =>
          rw [Stmt.steps]
          simp only [Stmt.fragments, Option.toList_some, List.map_cons, List.map_nil,
            List.mem_cons, List.not_mem_nil, or_false] at below
          rcases below with rfl | rfl | rfl
          · exact ⟨_, .expr test, (((Within.refl _).right _).left _).left _⟩
          · refine ⟨_, .stmt consequent, (((?_ : Within _ _).left _).left _).right _⟩
            split
            · exact Within.refl _
            · exact ((Within.refl _).right _).braced_singleton
          · exact ⟨_, .stmt alternate, ((Within.refl _).right _).right _⟩
  | loop init test update body span =>
      rw [Stmt.steps_loop]
      simp only [Stmt.fragments, List.mem_append, List.mem_map, Option.mem_toList,
        List.mem_singleton] at below
      rcases below with ((below | ⟨expr, member, rfl⟩) | ⟨expr, member, rfl⟩) | rfl
      · obtain ⟨part, drafted, within⟩ := within_init below span
        exact ⟨part, drafted, ((within.left _).right _).framed_singleton⟩
      · exact ⟨_, .expr expr,
          ((((((Within.optional member).left _).right _).right _)).right _).framed_singleton⟩
      · exact ⟨_, .expr expr, (((((((Within.optional member).left _).right _).right _).right
          _).right _).right _).framed_singleton⟩
      · exact ⟨_, .stmt body, ((((((((Within.refl _).right _).right _).right _).right _).right
          _).right _).right _).framed_singleton⟩
  | whileLoop test body span =>
      rw [Stmt.steps]
      rcases List.mem_cons.mp below with rfl | below
      · exact ⟨_, .expr test, (((Within.refl _).right _).left _).left _⟩
      · obtain rfl := List.mem_singleton.mp below
        exact ⟨_, .stmt body, (Within.refl _).right _⟩
  | doWhile body test span =>
      rw [Stmt.steps]
      rcases List.mem_cons.mp below with rfl | below
      · exact ⟨_, .expr test, ((Within.refl _).right _).left _⟩
      · obtain rfl := List.mem_singleton.mp below
        exact ⟨_, .stmt body, ((((Within.refl _).right _).left _).left _).left _⟩
  | ret arg span =>
      cases arg with
      | none => cases below
      | some arg =>
          obtain rfl := List.mem_singleton.mp below
          refine ⟨_, .expr arg, ?_⟩
          rw [Stmt.steps]
          exact ((Within.refl _).right _).left _
  | throw arg span =>
      obtain rfl := List.mem_singleton.mp below
      refine ⟨_, .expr arg, ?_⟩
      rw [Stmt.steps]
      exact ((Within.refl _).right _).left _
  | expr arg span =>
      obtain rfl := List.mem_singleton.mp below
      refine ⟨_, .expr arg, ?_⟩
      rw [Stmt.steps]
      exact (Within.refl _).left _

/-- What is written of a fragment has its steps among those of the fragment. -/
theorem Drafted.within {fragment : Fragment} {steps : List Step} (drafted : fragment.Drafted steps)
    (below : child ∈ fragment.written) : ∃ part, child.Drafted part ∧ Within part steps := by
  cases drafted with
  | program whole =>
      obtain ⟨stmt, member, rfl⟩ := List.mem_map.mp below
      obtain ⟨before, after, split⟩ := List.append_of_mem member
      refine ⟨_, .stmt stmt, ?_⟩
      rw [Program.steps, split, List.flatMap_append, List.flatMap_cons]
      exact ((((Within.refl _).left _).left _).right _).right _
  | stmt inner => exact within_stmt below
  | expr inner => exact within_expr below
  | group kind span decls =>
      cases decls with
      | nil => cases below
      | cons first rest =>
          obtain rfl := List.mem_singleton.mp below
          refine ⟨_, .declarator kind span first, ?_⟩
          cases first with
          | mk name init place => cases init <;> exact Within.refl _
  | declarator kind span inner =>
      cases inner with
      | mk name init place =>
          obtain ⟨expr, member, rfl⟩ := List.mem_map.mp below
          obtain rfl := Option.mem_toList.mp member
          refine ⟨_, .expr expr, ?_⟩
          rw [declSteps]
          exact (Within.refl _).right _
  | property inner =>
      cases inner with
      | named name value shorthand =>
          obtain rfl := List.mem_singleton.mp below
          refine ⟨_, .expr value, ?_⟩
          rw [Property.steps]
          exact (Within.refl _).right _
      | computed key value shorthand =>
          rw [Property.steps]
          rcases List.mem_cons.mp below with rfl | below
          · exact ⟨_, .expr key, (((Within.refl _).right _).left _).left _⟩
          · obtain rfl := List.mem_singleton.mp below
            exact ⟨_, .expr value, (Within.refl _).right _⟩

theorem forall_writes {fragment : Fragment} {holds : Fragment → Prop} (own : holds fragment)
    (inside : ∀ child ∈ fragment.written, ∀ below, child.Writes below → holds below) :
    ∀ below, fragment.Writes below → holds below :=
  forall_below own inside

theorem Writes.within {fragment below : Fragment} (writes : fragment.Writes below)
    {steps : List Step} (drafted : fragment.Drafted steps) :
    ∃ part, below.Drafted part ∧ Within part steps := by
  induction writes with
  | refl => exact ⟨steps, drafted, Within.refl _⟩
  | tail _ inside ih =>
      obtain ⟨middle, drafted, within⟩ := ih
      obtain ⟨part, drafted, inner⟩ := drafted.within inside
      exact ⟨part, drafted, inner.trans within⟩

theorem mem_children_of_written {fragment : Fragment} (below : child ∈ fragment.written) :
    child ∈ fragment.children := by
  cases fragment with
  | group decls =>
      rw [written] at below
      exact List.map_subset _ (List.take_subset 1 decls) below
  | program | stmt | expr | declarator | property => exact below

end Fragment

/-- The writing of a program that is transformed comes to every part of it that is written, and to
what is among the steps of such a part. -/
theorem Program.emitted_of_writes {program : Program} {style : Style} {text : String}
    (transformed : program.transform style = .ok text) {below : Fragment}
    (writes : (Fragment.program program).Writes below) {inner : List Step}
    (within : ∀ part, below.Drafted part → Step.Within inner part) :
    ∃ start pieces stop, program.Reaches inner start ∧
      Step.emit inner start = some (pieces, stop) := by
  obtain ⟨writer, ran, _⟩ := program.written_of_transform transformed
  obtain ⟨part, drafted, inside⟩ := writes.within (.program program)
  obtain ⟨start, reaches⟩ := ((within part drafted).trans inside).reached ran
  obtain ⟨after, ends⟩ := reaches.ends ran
  obtain ⟨pieces, emitted, _⟩ := Step.emit_eq_some_of_runAll ends
  exact ⟨start, pieces, _, reaches, emitted⟩

end Freshen

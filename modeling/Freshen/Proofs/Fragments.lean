import Freshen.Proofs.ReachedNodes
import Mathlib.Data.List.ReduceOption

/-!
The fragments of a tree, with what each is directly made of. Whatever keeps a program from being
written is found in one of its fragments: a node that is kept by its type name, or a declaration
group without a declarator.
-/

namespace Freshen

/-- A program or a part of one. Declaration groups of statements and of `for` heads are alike. -/
inductive Fragment where
  | program (program : Program)
  | stmt (stmt : Stmt)
  | expr (expr : Expr)
  | group (decls : List Declarator)
  | declarator (declarator : Declarator)
  | property (property : Property)

def LoopInit.fragments : LoopInit → List Fragment
  | .absent => []
  | .decl _ decls => [.group decls]
  | .expr inner => [.expr inner]

def Expr.fragments : Expr → List Fragment
  | .array elements _ => elements.reduceOption.map .expr
  | .object properties _ => properties.map .property
  | .function _ _ body _ _ | .arrowBlock _ body _ _ => body.map .stmt
  | .arrow _ arg _ _ | .unary _ arg _ | .update _ _ arg _ | .member arg _ _ => [.expr arg]
  | .binary _ left right _ | .assign _ left right _ | .index left right _ =>
    [.expr left, .expr right]
  | .conditional test consequent alternate _ => [.expr test, .expr consequent, .expr alternate]
  | .sequence exprs _ => exprs.map .expr
  | .call callee args _ | .new callee args _ => .expr callee :: args.map .expr
  | _ => []

def Stmt.fragments : Stmt → List Fragment
  | .var _ decls _ => [.group decls]
  | .function _ _ body _ _ | .block body _ => body.map .stmt
  | .cond test consequent alternate _ =>
    .expr test :: .stmt consequent :: alternate.toList.map .stmt
  | .loop init test update body _ =>
    init.fragments ++ test.toList.map .expr ++ update.toList.map .expr ++ [.stmt body]
  | .whileLoop test body _ | .doWhile body test _ => [.expr test, .stmt body]
  | .ret arg _ => arg.toList.map .expr
  | .throw arg _ | .expr arg _ => [.expr arg]
  | _ => []

namespace Fragment

def children : Fragment → List Fragment
  | program whole => whole.body.map stmt
  | stmt inner => inner.fragments
  | expr inner => inner.fragments
  | group decls => decls.map declarator
  | declarator (.mk _ init _) => init.toList.map expr
  | property (.named _ value _) => [expr value]
  | property (.computed key value _) => [expr key, expr value]

def Contains : Fragment → Fragment → Prop :=
  Relation.ReflTransGen fun fragment child => child ∈ fragment.children

theorem forall_below {parts : Fragment → List Fragment} {fragment : Fragment}
    {holds : Fragment → Prop} (own : holds fragment)
    (inside : ∀ child ∈ parts fragment, ∀ below,
      Relation.ReflTransGen (fun whole part => part ∈ parts whole) child below → holds below)
    (below : Fragment)
    (reached : Relation.ReflTransGen (fun whole part => part ∈ parts whole) fragment below) :
    holds below := by
  rcases Relation.ReflTransGen.cases_head reached with rfl | ⟨child, member, reached⟩
  · exact own
  · exact inside child member below reached

def unsupported? : Fragment → Option Unsupported
  | stmt (.unsupported kind span) | expr (.unsupported kind span) => some ⟨kind, span⟩
  | _ => none

/-- A cause for which a fragment cannot be written. Where a group stands does not matter. -/
def Offends (cause : Unsupported) : Fragment → Prop
  | program whole => cause ∈ whole.offenders
  | stmt inner => cause ∈ inner.offenders
  | expr inner => cause ∈ inner.offenders
  | group decls => ∃ span, cause ∈ declOffenders span decls
  | declarator (.mk _ init _) => cause ∈ optionalOffenders init
  | property inner => cause ∈ inner.offenders

end Fragment

theorem mem_optionalOffenders {cause : Unsupported} {optional : Option Expr} :
    cause ∈ optionalOffenders optional ↔ ∃ expr ∈ optional, cause ∈ expr.offenders := by
  cases optional <;> simp [optionalOffenders]

theorem mem_alternateOffenders {cause : Unsupported} {alternate : Option Stmt} :
    cause ∈ alternateOffenders alternate ↔ ∃ stmt ∈ alternate, cause ∈ stmt.offenders := by
  cases alternate <;> simp [alternateOffenders]

theorem mem_offenders_of_transform {program : Program} {style : Style} {cause : Unsupported}
    (failed : program.transform style = .error cause) : cause ∈ program.offenders :=
  List.mem_of_head? (head?_offenders_of_transform failed)

namespace Fragment

variable {cause : Unsupported}

theorem Offends.below_expr {inner : Expr} (offends : Offends cause (.expr inner)) :
    unsupported? (.expr inner) = some cause ∨ ∃ child ∈ inner.fragments, child.Offends cause := by
  cases inner with
  | unsupported kind span =>
      simp only [Offends, Expr.offenders, List.mem_singleton] at offends
      exact .inl (offends ▸ rfl)
  | null | bool | number | string | regex | ident => simp [Offends, Expr.offenders] at offends
  | array elements span =>
      simp only [Offends, Expr.offenders, elementOffenders_eq_flatMap, List.mem_flatMap,
        mem_optionalOffenders] at offends
      obtain ⟨_, inside, expr, rfl, offends⟩ := offends
      have member : .expr expr ∈ (Expr.array elements span).fragments :=
        List.mem_map_of_mem (List.reduceOption_mem_iff.mpr inside)
      exact .inr ⟨_, member, offends⟩
  | object | function | arrow | arrowBlock | unary | binary | assign | update | conditional
  | sequence | member | index | call | new =>
      refine .inr ?_
      simpa [Offends, Expr.offenders, Expr.fragments, exprsOffenders_eq_flatMap,
        propertyOffenders_eq_flatMap, stmtsOffenders_eq_flatMap] using offends

theorem Offends.below_init {init : LoopInit} {span : Span}
    (offends : cause ∈ init.offenders span) : ∃ child ∈ init.fragments, child.Offends cause := by
  cases init with
  | absent => simp [LoopInit.offenders] at offends
  | decl kind decls =>
      rw [LoopInit.offenders] at offends
      exact ⟨.group decls, List.mem_singleton_self _, span, offends⟩
  | expr inner =>
      rw [LoopInit.offenders] at offends
      exact ⟨.expr inner, List.mem_singleton_self _, offends⟩

theorem Offends.below_stmt {inner : Stmt} (offends : Offends cause (.stmt inner)) :
    unsupported? (.stmt inner) = some cause ∨ ∃ child ∈ inner.fragments, child.Offends cause := by
  cases inner with
  | unsupported kind span =>
      simp only [Offends, Stmt.offenders, List.mem_singleton] at offends
      exact .inl (offends ▸ rfl)
  | exitLoop | nextLoop | empty => simp [Offends, Stmt.offenders] at offends
  | var kind decls span =>
      rw [Offends, Stmt.offenders] at offends
      exact .inr ⟨.group decls, List.mem_singleton_self _, span, offends⟩
  | loop init test update body span =>
      simp only [Offends, Stmt.offenders, List.mem_append, mem_optionalOffenders] at offends
      refine .inr ?_
      rcases offends with
        ((offends | ⟨expr, present, offends⟩) | ⟨expr, present, offends⟩) | offends
      · obtain ⟨child, inside, offends⟩ := Offends.below_init offends
        exact ⟨child, by simp [Stmt.fragments, inside], offends⟩
      · exact ⟨.expr expr, by simp_all [Stmt.fragments], offends⟩
      · exact ⟨.expr expr, by simp_all [Stmt.fragments], offends⟩
      · exact ⟨.stmt body, by simp [Stmt.fragments], offends⟩
  | doWhile body test span =>
      refine .inr ?_
      simpa [Offends, Stmt.offenders, Stmt.fragments, or_comm] using offends
  | function | block | cond | whileLoop | ret | throw | expr =>
      refine .inr ?_
      simpa [Offends, Stmt.offenders, Stmt.fragments, stmtsOffenders_eq_flatMap,
        mem_optionalOffenders, mem_alternateOffenders] using offends

theorem Offends.below {fragment : Fragment} (offends : fragment.Offends cause) :
    fragment.unsupported? = some cause ∨ fragment = .group [] ∨
      ∃ child ∈ fragment.children, child.Offends cause := by
  cases fragment with
  | program whole =>
      refine .inr (.inr ?_)
      simpa [Offends, Program.offenders, stmtsOffenders_eq_flatMap, children] using offends
  | stmt inner => exact offends.below_stmt.imp_right .inr
  | expr inner => exact offends.below_expr.imp_right .inr
  | group decls =>
      cases decls with
      | nil => exact .inr (.inl rfl)
      | cons first rest =>
          obtain ⟨span, offends⟩ := offends
          cases first with
          | mk name init place =>
              rw [declOffenders] at offends
              exact .inr (.inr ⟨.declarator (.mk name init place), List.mem_cons_self, offends⟩)
  | declarator inner =>
      cases inner
      refine .inr (.inr ?_)
      simpa [Offends, children, mem_optionalOffenders] using offends
  | property inner =>
      refine .inr (.inr ?_)
      cases inner <;> simpa [Offends, Property.offenders, children] using offends

theorem sizeOf_lt_of_mem_children {fragment child : Fragment} (below : child ∈ fragment.children) :
    sizeOf child < sizeOf fragment := by
  cases fragment with
  | program whole => cases whole; grind [children, → List.sizeOf_lt_of_mem]
  | stmt inner =>
      cases inner with
      | loop init => cases init <;> grind [children, Stmt.fragments, LoopInit.fragments]
      | _ => grind [children, Stmt.fragments, → List.sizeOf_lt_of_mem]
  | expr inner =>
      cases inner <;>
        grind [children, Expr.fragments, List.reduceOption_mem_iff, → List.sizeOf_lt_of_mem]
  | group decls => grind [children, → List.sizeOf_lt_of_mem]
  | declarator inner => cases inner; grind [children]
  | property inner => cases inner <;> grind [children]

/-- What keeps a fragment from being written stands in it. -/
theorem Offends.found {fragment : Fragment} (offends : fragment.Offends cause) :
    ∃ below, fragment.Contains below ∧ (below.unsupported? = some cause ∨ below = .group []) := by
  rcases offends.below with here | rfl | ⟨child, inside, offends⟩
  · exact ⟨fragment, .refl, .inl here⟩
  · exact ⟨_, .refl, .inr rfl⟩
  · have smaller := sizeOf_lt_of_mem_children inside
    obtain ⟨below, contains, found⟩ := Offends.found offends
    exact ⟨below, .head inside contains, found⟩
termination_by sizeOf fragment

end Fragment

end Freshen

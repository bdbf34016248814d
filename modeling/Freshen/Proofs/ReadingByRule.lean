import Freshen.Proofs.ReadingRules

/-!
Expressions and statements are read exactly as the rules say. Each rule is found by the type of the
node, so both directions go through the types one by one.
-/

namespace Freshen.Estree

variable {json : Json}

theorem exprRule_of_ok {expr : Expr} (read : Estree.expr json = .ok expr) :
    ExprRule json expr := by
  rw [Estree.expr, bind_eq_ok] at read
  obtain ⟨⟨kind⟩, typed, rest⟩ := read
  rw [Node.of_eq_ok] at typed
  cases flavor : functionFlavor (⟨kind⟩ : Node json) with
  | some flavor' =>
      simp only [flavor, pure_eq_ok] at rest
      exact rest ▸ .marked typed flavor
  | none =>
  have unmarked := functionFlavor_eq_none.mp flavor
  simp only [flavor, Node.span_eq, Node.flag_eq] at rest
  split at rest
  next =>
    simp only [bind_eq_ok, Node.string_eq_ok, pure_eq_ok] at rest
    obtain ⟨_, named, rfl⟩ := rest
    exact .ident typed named
  next => exact .literal typed (literal_eq_ok.mp rest)
  next =>
    simp only [pure_eq_ok,
      Node.bind_items fun json => if json.isNull then pure none else some <$> Estree.expr json]
      at rest
    obtain ⟨_, each, rfl⟩ := rest
    exact .array typed each
  next =>
    simp only [bind_eq_ok] at rest
    obtain ⟨parts, listed, outcome, read, rest⟩ := rest
    have items := Node.child?_of_items listed
    replace read : ((parts.map (·.val)).mapM property).run = .ok outcome := by
      rw [List.mapM_map]
      exact read
    cases outcome with
    | ok properties =>
        obtain rfl := pure_eq_ok.mp rest
        have each := run_mapM_eq_ok.mp read
        simp only [property_eq_ok] at each
        exact .object typed items each
    | error kind =>
        obtain rfl := pure_eq_ok.mp rest
        exact .refusedObject typed items read
  next =>
    simp only [bind_eq_ok, pure_eq_ok] at rest
    obtain ⟨⟨_, _, _⟩, parts, rfl⟩ := rest
    obtain ⟨sync, single⟩ := unmarked (by decide)
    exact .function typed sync single (function_eq_ok.mp parts)
  next =>
    obtain ⟨sync, single⟩ := unmarked (by decide)
    simp only [bind_eq_ok, Node.field_eq_ok, Node.of_eq_ok] at rest
    obtain ⟨body, found, ⟨kind⟩, bodyTyped, rest⟩ := rest
    split at rest
    next same =>
      obtain rfl := same
      simp only [bind_eq_ok, params_eq_ok, pure_eq_ok, Node.bind_items stmt] at rest
      obtain ⟨_, each, _, taken, rfl⟩ := rest
      exact .arrowBlock typed sync single found bodyTyped each taken
    next other =>
      simp only [bind_eq_ok, params_eq_ok, pure_eq_ok] at rest
      obtain ⟨_, read, _, taken, rfl⟩ := rest
      exact .arrow typed sync single found bodyTyped other read taken
  next =>
    simp only [bind_eq_ok, operator_eq_ok, pure_eq_ok, Node.bind_field Estree.expr] at rest
    obtain ⟨_, op, _, arg, rfl⟩ := rest
    exact .unary typed op arg
  next =>
    simp only [bind_eq_ok, operator_eq_ok, pure_eq_ok, Node.bind_field Estree.expr] at rest
    obtain ⟨_, op, _, left, _, right, rfl⟩ := rest
    exact .binary typed (by simp) op left right
  next =>
    simp only [bind_eq_ok, operator_eq_ok, pure_eq_ok, Node.bind_field Estree.expr] at rest
    obtain ⟨_, op, _, left, _, right, rfl⟩ := rest
    exact .binary typed (by simp) op left right
  next =>
    simp only [bind_eq_ok, operator_eq_ok, Node.field_eq_ok, Node.of_eq_ok] at rest
    obtain ⟨_, op, target, found, ⟨kind⟩, targetTyped, rest⟩ := rest
    split at rest
    next pattern => simp only [bind_eq_ok, throw_ne_ok, false_and, exists_false] at rest
    next plain =>
      simp only [bind_eq_ok, pure_eq_ok, Node.bind_field Estree.expr] at rest
      obtain ⟨_, read, _, value, rfl⟩ := rest
      exact .assign typed op found targetTyped (Decidable.not_not.mp plain) read value
  next =>
    simp only [bind_eq_ok, operator_eq_ok, pure_eq_ok, Node.bind_field Estree.expr] at rest
    obtain ⟨_, op, _, arg, rfl⟩ := rest
    exact .update typed op arg
  next =>
    simp only [pure_eq_ok, Node.bind_field Estree.expr] at rest
    obtain ⟨_, test, _, consequent, _, alternate, rfl⟩ := rest
    exact .conditional typed test consequent alternate
  next =>
    simp only [pure_eq_ok, Node.bind_items Estree.expr] at rest
    obtain ⟨_, each, rfl⟩ := rest
    exact .sequence typed each
  next =>
    cases computed : json.flag "computed" with
    | true =>
        simp only [computed, if_true, pure_eq_ok, Node.bind_field Estree.expr] at rest
        obtain ⟨_, property, _, object, rfl⟩ := rest
        exact .index typed computed property object
    | false =>
        simp only [computed, Bool.false_eq_true, if_false, bind_eq_ok, Node.field_eq_ok,
          Node.of_eq_ok] at rest
        obtain ⟨property, found, ⟨kind⟩, propertyTyped, rest⟩ := rest
        split at rest
        next same =>
          obtain rfl := same
          simp only [bind_eq_ok, Node.string_eq_ok, pure_eq_ok, Node.bind_field Estree.expr]
            at rest
          obtain ⟨_, named, _, object, rfl⟩ := rest
          exact .member typed computed found propertyTyped named object
        next other =>
          obtain rfl := pure_eq_ok.mp rest
          exact .refusedMember typed computed found propertyTyped other
  next =>
    cases optional : json.flag "optional" with
    | true =>
        simp only [optional, if_true, pure_eq_ok] at rest
        exact rest ▸ .optionalCall typed optional
    | false =>
        simp only [optional, Bool.false_eq_true, if_false, pure_eq_ok,
          Node.bind_field Estree.expr, Node.bind_items Estree.expr] at rest
        obtain ⟨_, callee, _, args, rfl⟩ := rest
        exact .call typed optional callee args
  next =>
    simp only [pure_eq_ok, Node.bind_field Estree.expr, Node.bind_items Estree.expr] at rest
    obtain ⟨_, callee, _, args, rfl⟩ := rest
    exact .new typed callee args
  next =>
    obtain rfl := pure_eq_ok.mp rest
    refine .other typed flavor ?_
    simp only [exprKinds, List.mem_cons, List.not_mem_nil, or_false]
    simp_all

theorem expr_eq_ok {expr : Expr} : Estree.expr json = .ok expr ↔ ExprRule json expr := by
  refine ⟨exprRule_of_ok, fun rule => ?_⟩
  rw [Estree.expr]
  cases rule with
  | marked typed marked =>
      simp only [Node.of_kind? typed, ok_bind, marked]
      rfl
  | ident typed named =>
      simp only [Node.of_kind? typed, ok_bind, unmarked_of_not_mem "Identifier" (by decide),
        bind_eq_ok, Node.string_eq_ok, pure_eq_ok]
      exact ⟨_, named, rfl⟩
  | literal typed literal =>
      simp only [Node.of_kind? typed, ok_bind, unmarked_of_not_mem "Literal" (by decide)]
      exact literal_eq_ok.mpr literal
  | array typed each =>
      simp only [Node.of_kind? typed, ok_bind, unmarked_of_not_mem "ArrayExpression" (by decide),
        pure_eq_ok,
        Node.bind_items fun json => if json.isNull then pure none else some <$> Estree.expr json]
      exact ⟨_, each, rfl⟩
  | object typed found each =>
      replace each := each.imp fun _ _ => property_eq_ok.mpr
      obtain ⟨parts, listed, rfl⟩ := Node.items_of_child? ⟨"ObjectExpression"⟩ found
      have read := run_mapM_eq_ok.mpr each
      rw [List.mapM_map] at read
      simp only [Node.of_kind? typed, ok_bind, unmarked_of_not_mem "ObjectExpression" (by decide),
        listed]
      exact bind_eq_ok.mpr ⟨_, read, rfl⟩
  | refusedObject typed found refused =>
      obtain ⟨parts, listed, rfl⟩ := Node.items_of_child? ⟨"ObjectExpression"⟩ found
      rw [List.mapM_map] at refused
      simp only [Node.of_kind? typed, ok_bind, unmarked_of_not_mem "ObjectExpression" (by decide),
        listed]
      exact bind_eq_ok.mpr ⟨_, refused, rfl⟩
  | function typed sync single parts =>
      simp only [Node.of_kind? typed, ok_bind, functionFlavor_eq_none.mpr fun _ => ⟨sync, single⟩,
        bind_eq_ok, pure_eq_ok]
      exact ⟨(_, _, _), function_eq_ok.mpr parts, rfl⟩
  | @arrow _ kind _ _ typed sync single found bodyTyped other read taken =>
      simp only [Node.of_kind? typed, ok_bind, functionFlavor_eq_none.mpr fun _ => ⟨sync, single⟩,
        Node.field_of_child? _ found, Node.of_kind? bodyTyped, other, if_false, read,
        params_eq_ok.mpr taken]
      rfl
  | arrowBlock typed sync single found bodyTyped each taken =>
      simp only [Node.of_kind? typed, ok_bind, functionFlavor_eq_none.mpr fun _ => ⟨sync, single⟩,
        Node.field_of_child? _ found, Node.of_kind? bodyTyped, if_true, params_eq_ok.mpr taken,
        Node.bind_items stmt]
      exact ⟨_, each, rfl⟩
  | unary typed op arg =>
      simp only [Node.of_kind? typed, ok_bind, unmarked_of_not_mem "UnaryExpression" (by decide),
        bind_eq_ok, operator_eq_ok, pure_eq_ok, Node.bind_field Estree.expr]
      exact ⟨_, op, _, arg, rfl⟩
  | binary typed which op left right =>
      simp only [List.mem_cons, List.not_mem_nil, or_false] at which
      rcases which with rfl | rfl
      · simp only [Node.of_kind? typed, ok_bind, unmarked_of_not_mem "BinaryExpression" (by decide),
          bind_eq_ok, operator_eq_ok, pure_eq_ok, Node.bind_field Estree.expr]
        exact ⟨_, op, _, left, _, right, rfl⟩
      · simp only [Node.of_kind? typed, ok_bind,
          unmarked_of_not_mem "LogicalExpression" (by decide), bind_eq_ok, operator_eq_ok,
          pure_eq_ok, Node.bind_field Estree.expr]
        exact ⟨_, op, _, left, _, right, rfl⟩
  | assign typed op found targetTyped plain read value =>
      simp only [Node.of_kind? typed, ok_bind,
        unmarked_of_not_mem "AssignmentExpression" (by decide), bind_eq_ok, operator_eq_ok]
      refine ⟨_, op, _, Node.field_of_child? _ found, _, Node.of_kind? targetTyped, ?_⟩
      simp only [plain, not_true_eq_false, if_false, read, ok_bind, pure_eq_ok,
        Node.bind_field Estree.expr]
      exact ⟨_, value, rfl⟩
  | update typed op arg =>
      simp only [Node.of_kind? typed, ok_bind, unmarked_of_not_mem "UpdateExpression" (by decide),
        Node.flag_eq, bind_eq_ok, operator_eq_ok, pure_eq_ok, Node.bind_field Estree.expr]
      exact ⟨_, op, _, arg, rfl⟩
  | conditional typed test consequent alternate =>
      simp only [Node.of_kind? typed, ok_bind,
        unmarked_of_not_mem "ConditionalExpression" (by decide), pure_eq_ok,
        Node.bind_field Estree.expr]
      exact ⟨_, test, _, consequent, _, alternate, rfl⟩
  | sequence typed each =>
      simp only [Node.of_kind? typed, ok_bind, unmarked_of_not_mem "SequenceExpression" (by decide),
        pure_eq_ok, Node.bind_items Estree.expr]
      exact ⟨_, each, rfl⟩
  | index typed computed property object =>
      simp only [Node.of_kind? typed, ok_bind, unmarked_of_not_mem "MemberExpression" (by decide),
        Node.flag_eq, computed, if_true, pure_eq_ok, Node.bind_field Estree.expr]
      exact ⟨_, property, _, object, rfl⟩
  | member typed computed found propertyTyped named object =>
      simp only [Node.of_kind? typed, ok_bind, unmarked_of_not_mem "MemberExpression" (by decide),
        Node.flag_eq, computed, Bool.false_eq_true, if_false, Node.field_of_child? _ found,
        Node.of_kind? propertyTyped, if_true, Node.string_eq_ok.mpr named, pure_eq_ok,
        Node.bind_field Estree.expr]
      exact ⟨_, object, rfl⟩
  | refusedMember typed computed found propertyTyped other =>
      simp only [Node.of_kind? typed, ok_bind, unmarked_of_not_mem "MemberExpression" (by decide),
        Node.flag_eq, computed, Bool.false_eq_true, if_false, Node.field_of_child? _ found,
        Node.of_kind? propertyTyped, other]
      rfl
  | call typed plain callee args =>
      simp only [Node.of_kind? typed, ok_bind, unmarked_of_not_mem "CallExpression" (by decide),
        Node.flag_eq, plain, Bool.false_eq_true, if_false, pure_eq_ok,
        Node.bind_field Estree.expr, Node.bind_items Estree.expr]
      exact ⟨_, callee, _, args, rfl⟩
  | optionalCall typed optional =>
      simp only [Node.of_kind? typed, ok_bind, unmarked_of_not_mem "CallExpression" (by decide),
        Node.flag_eq, optional, if_true]
      rfl
  | new typed callee args =>
      simp only [Node.of_kind? typed, ok_bind, unmarked_of_not_mem "NewExpression" (by decide),
        pure_eq_ok, Node.bind_field Estree.expr, Node.bind_items Estree.expr]
      exact ⟨_, callee, _, args, rfl⟩
  | other typed unmarked outside =>
      simp only [exprKinds, List.mem_cons, List.not_mem_nil, or_false, not_or] at outside
      simp only [Node.of_kind? typed, ok_bind, unmarked]
      split <;> first | rfl | simp_all

theorem stmtRule_of_ok {stmt : Stmt} (read : Estree.stmt json = .ok stmt) :
    StmtRule json stmt := by
  rw [Estree.stmt, bind_eq_ok] at read
  obtain ⟨⟨kind⟩, typed, rest⟩ := read
  rw [Node.of_eq_ok] at typed
  simp only [Node.span_eq, Node.isSome_field?] at rest
  split at rest
  next =>
    simp only [bind_eq_ok, pure_eq_ok] at rest
    obtain ⟨⟨_, _⟩, group, rfl⟩ := rest
    exact .var typed (declarations_eq_ok.mp group)
  next =>
    cases flavor : functionFlavor (⟨"FunctionDeclaration"⟩ : Node json) with
    | some mark =>
        simp only [flavor, pure_eq_ok] at rest
        exact rest ▸ .marked typed flavor
    | none =>
        obtain ⟨sync, single⟩ := functionFlavor_eq_none.mp flavor (by decide)
        simp only [flavor, bind_eq_ok, pure_eq_ok] at rest
        obtain ⟨⟨_, _, _⟩, parts, rfl⟩ := rest
        exact .function typed sync single (function_eq_ok.mp parts)
  next =>
    simp only [pure_eq_ok, Node.bind_items Estree.stmt] at rest
    obtain ⟨_, each, rfl⟩ := rest
    exact .block typed each
  next =>
    simp only [bind_eq_ok, pure_eq_ok, Node.mapM_field? Estree.stmt, Node.bind_field Estree.stmt,
      Node.bind_field expr] at rest
    obtain ⟨_, test, _, consequent, _, alternate, rfl⟩ := rest
    exact .cond typed test consequent alternate
  next =>
    simp only [bind_eq_ok, pure_eq_ok, Node.mapM_field? loopInit, Node.mapM_field? expr,
      Node.bind_field Estree.stmt] at rest
    obtain ⟨_, init, _, test, _, update, _, body, rfl⟩ := rest
    exact .loop typed init test update body
  next =>
    simp only [pure_eq_ok, Node.bind_field expr, Node.bind_field Estree.stmt] at rest
    obtain ⟨_, test, _, body, rfl⟩ := rest
    exact .whileLoop typed test body
  next =>
    simp only [pure_eq_ok, Node.bind_field expr, Node.bind_field Estree.stmt] at rest
    obtain ⟨_, body, _, test, rfl⟩ := rest
    exact .doWhile typed body test
  next =>
    cases label : json.child? "label" with
    | some target =>
        simp only [label, Option.isSome_some, if_true, pure_eq_ok] at rest
        exact rest ▸ .labelled typed (by simp) label
    | none =>
        simp only [label, Option.isSome_none, Bool.false_eq_true, if_false, pure_eq_ok] at rest
        exact rest ▸ .exitLoop typed label
  next =>
    cases label : json.child? "label" with
    | some target =>
        simp only [label, Option.isSome_some, if_true, pure_eq_ok] at rest
        exact rest ▸ .labelled typed (by simp) label
    | none =>
        simp only [label, Option.isSome_none, Bool.false_eq_true, if_false, pure_eq_ok] at rest
        exact rest ▸ .nextLoop typed label
  next =>
    simp only [bind_eq_ok, pure_eq_ok, Node.mapM_field? expr] at rest
    obtain ⟨_, arg, rfl⟩ := rest
    exact .ret typed arg
  next =>
    simp only [pure_eq_ok, Node.bind_field expr] at rest
    obtain ⟨_, arg, rfl⟩ := rest
    exact .throw typed arg
  next =>
    simp only [pure_eq_ok, Node.bind_field expr] at rest
    obtain ⟨_, inner, rfl⟩ := rest
    exact .expr typed inner
  next =>
    obtain rfl := pure_eq_ok.mp rest
    exact .empty typed
  next =>
    obtain rfl := pure_eq_ok.mp rest
    refine .other typed ?_
    simp only [stmtKinds, List.mem_cons, List.not_mem_nil, or_false]
    simp_all

theorem stmt_eq_ok {stmt : Stmt} : Estree.stmt json = .ok stmt ↔ StmtRule json stmt := by
  refine ⟨stmtRule_of_ok, fun rule => ?_⟩
  rw [Estree.stmt]
  cases rule with
  | var typed group =>
      simp only [Node.of_kind? typed, ok_bind, declarations_eq_ok.mpr group]
      rfl
  | marked typed marked =>
      simp only [Node.of_kind? typed, ok_bind, marked]
      rfl
  | function typed sync single parts =>
      simp only [Node.of_kind? typed, ok_bind, functionFlavor_eq_none.mpr fun _ => ⟨sync, single⟩,
        function_eq_ok.mpr parts]
      rfl
  | block typed each =>
      simp only [Node.of_kind? typed, ok_bind, pure_eq_ok, Node.bind_items Estree.stmt]
      exact ⟨_, each, rfl⟩
  | cond typed test consequent alternate =>
      simp only [Node.of_kind? typed, ok_bind, bind_eq_ok, pure_eq_ok,
        Node.mapM_field? Estree.stmt, Node.bind_field Estree.stmt, Node.bind_field expr]
      exact ⟨_, test, _, consequent, _, alternate, rfl⟩
  | loop typed init test update body =>
      simp only [Node.of_kind? typed, ok_bind, bind_eq_ok, pure_eq_ok, Node.mapM_field? loopInit,
        Node.mapM_field? expr, Node.bind_field Estree.stmt]
      exact ⟨_, init, _, test, _, update, _, body, rfl⟩
  | whileLoop typed test body =>
      simp only [Node.of_kind? typed, ok_bind, pure_eq_ok, Node.bind_field expr,
        Node.bind_field Estree.stmt]
      exact ⟨_, test, _, body, rfl⟩
  | doWhile typed body test =>
      simp only [Node.of_kind? typed, ok_bind, pure_eq_ok, Node.bind_field expr,
        Node.bind_field Estree.stmt]
      exact ⟨_, body, _, test, rfl⟩
  | exitLoop typed label =>
      simp only [Node.of_kind? typed, ok_bind, Node.isSome_field?, label, Option.isSome_none]
      rfl
  | nextLoop typed label =>
      simp only [Node.of_kind? typed, ok_bind, Node.isSome_field?, label, Option.isSome_none]
      rfl
  | labelled typed which label =>
      simp only [List.mem_cons, List.not_mem_nil, or_false] at which
      rcases which with rfl | rfl <;>
        simp only [Node.of_kind? typed, ok_bind, Node.isSome_field?, label, Option.isSome_some] <;>
        rfl
  | ret typed arg =>
      simp only [Node.of_kind? typed, ok_bind, bind_eq_ok, pure_eq_ok, Node.mapM_field? expr]
      exact ⟨_, arg, rfl⟩
  | throw typed arg =>
      simp only [Node.of_kind? typed, ok_bind, pure_eq_ok, Node.bind_field expr]
      exact ⟨_, arg, rfl⟩
  | expr typed inner =>
      simp only [Node.of_kind? typed, ok_bind, pure_eq_ok, Node.bind_field Estree.expr]
      exact ⟨_, inner, rfl⟩
  | empty typed =>
      simp only [Node.of_kind? typed, ok_bind]
      rfl
  | other typed outside =>
      simp only [stmtKinds, List.mem_cons, List.not_mem_nil, or_false, not_or] at outside
      simp only [Node.of_kind? typed, ok_bind]
      split <;> first | rfl | simp_all

theorem program_eq_ok {program : Program} :
    Estree.program json = .ok program ↔
      json.kind? = some "Program" ∧ ReadsEach json "body" stmt program.body ∧
        json.span = program.span := by
  rw [Estree.program]
  simp only [bind_eq_ok, Node.of_eq_ok, Node.span_eq]
  constructor
  · rintro ⟨⟨kind⟩, typed, rest⟩
    split at rest
    next other => simp only [bind_eq_ok, throw_ne_ok, false_and, exists_false] at rest
    next same =>
      obtain rfl := Decidable.not_not.mp same
      simp only [pure_eq_ok, Node.bind_items stmt] at rest
      obtain ⟨_, each, rfl⟩ := rest
      exact ⟨typed, each, rfl⟩
  · rintro ⟨typed, each, span⟩
    refine ⟨⟨"Program"⟩, typed, ?_⟩
    simp only [ne_eq, not_true_eq_false, if_false, pure_eq_ok, Node.bind_items stmt]
    exact ⟨program.body, each, by rw [span]⟩

end Freshen.Estree

import Freshen.Proofs.ReadingByRule
import Freshen.Proofs.Rejection
import Mathlib.Logic.Relation

/-!
The nodes of an ESTree that a program is made of, each with what it is read as. If a program can be
read and written, all of them have types that are known where they stand, and none has a mark that
the written code would not show.
-/

namespace Freshen

namespace Json

def listed (json : Json) (name : String) : List Json :=
  match json.child? name with
  | some (.array items) => items
  | _ => []

end Json

namespace Estree

inductive Role where
  | program
  | statement
  | expression
  /-- What stands before the first semicolon of a `for` head. -/
  | loopHead
  /-- A block or a concise result. -/
  | arrowBody
  /-- The node around the statements of a function. -/
  | functionBody
  | declarator
  /-- A name that is declared. -/
  | binding
  | property
  /-- A property name that is written out. -/
  | propertyName
  /-- The name behind the dot of a member access. -/
  | memberName
deriving DecidableEq, Repr

structure Site where
  role : Role
  json : Json

/-- A field that holds nodes: one that may be absent, a list of them, or a list of which only the
first counts. -/
inductive Field where
  | one (name : String) (role : Role)
  | each (name : String) (role : Role)
  | first (name : String) (role : Role)
deriving DecidableEq, Repr

def Field.sites (json : Json) : Field → List Site
  | one name role => (json.child? name).toList.map (⟨role, ·⟩)
  | each name role => ((json.listed name).filter (!·.isNull)).map (⟨role, ·⟩)
  | first name role => (json.listed name).head?.toList.map (⟨role, ·⟩)

def functionFields : List Field :=
  [.one "id" .binding, .each "params" .binding, .one "body" .functionBody]

def exprFields (json : Json) : List Field :=
  match json.kind? with
  | some "ArrayExpression" => [.each "elements" .expression]
  | some "ObjectExpression" => [.each "properties" .property]
  | some "FunctionExpression" => functionFields
  | some "ArrowFunctionExpression" => [.each "params" .binding, .one "body" .arrowBody]
  | some "UnaryExpression" | some "UpdateExpression" => [.one "argument" .expression]
  | some "BinaryExpression" | some "LogicalExpression" | some "AssignmentExpression" =>
    [.one "left" .expression, .one "right" .expression]
  | some "ConditionalExpression" =>
    [.one "test" .expression, .one "consequent" .expression, .one "alternate" .expression]
  | some "SequenceExpression" => [.each "expressions" .expression]
  | some "MemberExpression" =>
    [.one "object" .expression,
      .one "property" (if json.flag "computed" then .expression else .memberName)]
  | some "CallExpression" | some "NewExpression" =>
    [.one "callee" .expression, .each "arguments" .expression]
  | _ => []

def stmtFields (json : Json) : List Field :=
  match json.kind? with
  | some "VariableDeclaration" => [.first "declarations" .declarator]
  | some "FunctionDeclaration" => functionFields
  | some "BlockStatement" => [.each "body" .statement]
  | some "IfStatement" =>
    [.one "test" .expression, .one "consequent" .statement, .one "alternate" .statement]
  | some "ForStatement" =>
    [.one "init" .loopHead, .one "test" .expression, .one "update" .expression,
      .one "body" .statement]
  | some "WhileStatement" | some "DoWhileStatement" =>
    [.one "test" .expression, .one "body" .statement]
  | some "ReturnStatement" | some "ThrowStatement" => [.one "argument" .expression]
  | some "ExpressionStatement" => [.one "expression" .expression]
  | _ => []

namespace Site

def fields : Site → List Field
  | ⟨.program, _⟩ | ⟨.functionBody, _⟩ => [.each "body" .statement]
  | ⟨.statement, json⟩ => stmtFields json
  | ⟨.expression, json⟩ => exprFields json
  | ⟨.loopHead, json⟩ =>
    if json.kind? = some "VariableDeclaration" then stmtFields json else exprFields json
  | ⟨.arrowBody, json⟩ =>
    if json.kind? = some "BlockStatement" then stmtFields json else exprFields json
  | ⟨.declarator, _⟩ => [.one "id" .binding, .one "init" .expression]
  | ⟨.property, json⟩ =>
    [.one "key" (if json.flag "computed" then .expression else .propertyName),
      .one "value" .expression]
  | ⟨.binding, _⟩ | ⟨.propertyName, _⟩ | ⟨.memberName, _⟩ => []

def children (site : Site) : List Site := site.fields.flatMap (Field.sites site.json)

def Reaches : Site → Site → Prop := Relation.ReflTransGen fun site child => child ∈ site.children

end Site

structure PlainFunction (json : Json) : Prop where
  synchronous : json.get? "async" ≠ some (.bool true)
  single : json.get? "generator" ≠ some (.bool true)

/-- Not a big integer; next to a regular expression the field means nothing. -/
def PlainLiteral (json : Json) : Prop := json.child? "regex" = none → json.child? "bigint" = none

structure SupportedExpr (json : Json) : Prop where
  known : ∃ kind ∈ exprKinds, json.kind? = some kind
  function : json.kind? = some "FunctionExpression" ∨ json.kind? = some "ArrowFunctionExpression" →
    PlainFunction json
  literal : json.kind? = some "Literal" → PlainLiteral json
  call : json.kind? = some "CallExpression" → json.get? "optional" ≠ some (.bool true)

structure SupportedStmt (json : Json) : Prop where
  known : ∃ kind ∈ stmtKinds, json.kind? = some kind
  function : json.kind? = some "FunctionDeclaration" → PlainFunction json
  jump : json.kind? = some "BreakStatement" ∨ json.kind? = some "ContinueStatement" →
    json.child? "label" = none

/-- A node that can be written as what it is read as. The types of declarators and of the nodes
around function bodies are not looked at. -/
def Site.Supported : Site → Prop
  | ⟨.program, json⟩ => json.kind? = some "Program"
  | ⟨.statement, json⟩ => SupportedStmt json
  | ⟨.expression, json⟩ => SupportedExpr json
  | ⟨.loopHead, json⟩ => json.kind? = some "VariableDeclaration" ∨ SupportedExpr json
  | ⟨.arrowBody, json⟩ => json.kind? = some "BlockStatement" ∨ SupportedExpr json
  | ⟨.property, json⟩ =>
    json.kind? = some "Property" ∧ json.child? "kind" = some (.string "init") ∧
      json.get? "method" ≠ some (.bool true)
  | ⟨.propertyName, json⟩ =>
    json.kind? = some "Identifier" ∨ json.kind? = some "Literal" ∧ PlainLiteral json
  | ⟨.binding, json⟩ | ⟨.memberName, json⟩ => json.kind? = some "Identifier"
  | ⟨.declarator, _⟩ | ⟨.functionBody, _⟩ => True

end Estree

theorem exprsOffenders_eq_flatMap (exprs : List Expr) :
    exprsOffenders exprs = exprs.flatMap Expr.offenders := by
  induction exprs with
  | nil => simp [exprsOffenders]
  | cons expr rest ih => simp [exprsOffenders, ih]

theorem elementOffenders_eq_flatMap (elements : List (Option Expr)) :
    elementOffenders elements = elements.flatMap optionalOffenders := by
  induction elements with
  | nil => simp [elementOffenders]
  | cons element rest ih => simp [elementOffenders, ih]

theorem propertyOffenders_eq_flatMap (properties : List Property) :
    propertyOffenders properties = properties.flatMap Property.offenders := by
  induction properties with
  | nil => simp [propertyOffenders]
  | cons property rest ih => simp [propertyOffenders, ih]

theorem stmtsOffenders_eq_flatMap (body : List Stmt) :
    stmtsOffenders body = body.flatMap Stmt.offenders := by
  induction body with
  | nil => simp [stmtsOffenders]
  | cons stmt rest ih => simp [stmtsOffenders, ih]

namespace Estree

def Site.Clean : Site → Prop
  | ⟨.program, json⟩ => ∃ program, Estree.program json = .ok program ∧ program.offenders = []
  | ⟨.statement, json⟩ => ∃ stmt, Estree.stmt json = .ok stmt ∧ stmt.offenders = []
  | ⟨.expression, json⟩ => ∃ expr, Estree.expr json = .ok expr ∧ expr.offenders = []
  | ⟨.loopHead, json⟩ => ∃ init span, loopInit json = .ok init ∧ init.offenders span = []
  | ⟨.arrowBody, json⟩ =>
    (json.kind? = some "BlockStatement" ∧
      ∃ body, ReadsEach json "body" stmt body ∧ stmtsOffenders body = []) ∨
    json.kind? ≠ some "BlockStatement" ∧ ∃ expr, Estree.expr json = .ok expr ∧ expr.offenders = []
  | ⟨.functionBody, json⟩ => ∃ body, ReadsEach json "body" stmt body ∧ stmtsOffenders body = []
  | ⟨.declarator, json⟩ =>
    ∃ name init, DeclaratorRule json name init ∧ optionalOffenders init = []
  | ⟨.property, json⟩ => ∃ property, PropertyRule json property ∧ property.offenders = []
  | ⟨.propertyName, json⟩ => ∃ name, PropertyNameRule json name
  | ⟨.binding, json⟩ | ⟨.memberName, json⟩ => json.kind? = some "Identifier"

def Field.Clean (json : Json) (field : Field) : Prop := ∀ site ∈ field.sites json, site.Clean

section

variable {json : Json} {name : String} {role : Role} {α : Type} {read : Json → Load α}

theorem Field.clean_child {value : Json} (present : json.child? name = some value)
    (clean : Site.Clean ⟨role, value⟩) : Field.Clean json (.one name role) := by
  simpa [Field.Clean, Field.sites, present] using clean

theorem Field.clean_one {result : α} (found : Reads json name read result)
    (clean : ∀ value, read value = .ok result → Site.Clean ⟨role, value⟩) :
    Field.Clean json (.one name role) := by
  obtain ⟨value, present, done⟩ := found
  exact clean_child present (clean value done)

theorem Field.clean_any {result : Option α} (found : ReadsAny json name read result)
    (clean : ∀ value, ∀ each ∈ result, read value = .ok each → Site.Clean ⟨role, value⟩) :
    Field.Clean json (.one name role) := by
  rw [ReadsAny] at found
  cases present : json.child? name with
  | none => simp [Field.Clean, Field.sites, present]
  | some value =>
      rw [present] at found
      cases found with
      | some done => exact clean_child present (clean value _ rfl done)

theorem exists_of_mem_left {β : Type} {R : α → β → Prop} {items : List α} {results : List β}
    (related : List.Forall₂ R items results) {item : α} (inside : item ∈ items) :
    ∃ result ∈ results, R item result := by
  induction related with
  | nil => simp at inside
  | cons head _ ih =>
      rcases List.mem_cons.mp inside with rfl | later
      · exact ⟨_, List.mem_cons_self, head⟩
      · obtain ⟨result, found, holds⟩ := ih later
        exact ⟨result, List.mem_cons_of_mem _ found, holds⟩

theorem Field.clean_items {R : Json → α → Prop} {items : List Json} {results : List α}
    (found : json.child? name = some (.array items)) (related : List.Forall₂ R items results)
    (clean : ∀ item, item.isNull = false → ∀ result ∈ results, R item result →
      Site.Clean ⟨role, item⟩) :
    Field.Clean json (.each name role) := by
  intro site member
  simp only [Field.sites, Json.listed, found, List.mem_map, List.mem_filter,
    Bool.not_eq_true'] at member
  obtain ⟨item, ⟨inside, present⟩, rfl⟩ := member
  obtain ⟨result, among, holds⟩ := exists_of_mem_left related inside
  exact clean item present result among holds

theorem Field.clean_each {results : List α} (found : ReadsEach json name read results)
    (clean : ∀ item, item.isNull = false → ∀ result ∈ results, read item = .ok result →
      Site.Clean ⟨role, item⟩) :
    Field.Clean json (.each name role) := by
  obtain ⟨items, present, related⟩ := found
  exact clean_items present related clean

theorem Field.clean_first {result : α} {rest : List α}
    (found : ReadsEach json name read (result :: rest))
    (clean : ∀ item, read item = .ok result → Site.Clean ⟨role, item⟩) :
    Field.Clean json (.first name role) := by
  obtain ⟨items, present, related⟩ := found
  cases related with
  | cons head _ => simpa [Field.Clean, Field.sites, Json.listed, present] using clean _ head

theorem Field.clean_stmts {body : List Stmt} (found : ReadsEach json name stmt body)
    (clean : stmtsOffenders body = []) : Field.Clean json (.each name .statement) := by
  rw [stmtsOffenders_eq_flatMap, List.flatMap_eq_nil_iff] at clean
  exact clean_each found fun _ _ stmt among done => ⟨stmt, done, clean stmt among⟩

theorem Field.clean_exprs {exprs : List Expr} (found : ReadsEach json name expr exprs)
    (clean : exprsOffenders exprs = []) : Field.Clean json (.each name .expression) := by
  rw [exprsOffenders_eq_flatMap, List.flatMap_eq_nil_iff] at clean
  exact clean_each found fun _ _ expr among done => ⟨expr, done, clean expr among⟩

theorem Field.clean_expr {value : Expr} (found : Reads json name expr value)
    (clean : value.offenders = []) : Field.Clean json (.one name .expression) :=
  clean_one found fun _ done => ⟨value, done, clean⟩

theorem Field.clean_stmt {value : Stmt} (found : Reads json name stmt value)
    (clean : value.offenders = []) : Field.Clean json (.one name .statement) :=
  clean_one found fun _ done => ⟨value, done, clean⟩

theorem Field.clean_optional {value : Option Expr} (found : ReadsAny json name expr value)
    (clean : optionalOffenders value = []) : Field.Clean json (.one name .expression) := by
  refine clean_any found fun _ expr among done => ⟨expr, done, ?_⟩
  obtain rfl := among
  simpa [optionalOffenders] using clean

theorem Field.clean_elements {elements : List (Option Expr)}
    (found : ReadsEach json name element elements) (clean : elementOffenders elements = []) :
    Field.Clean json (.each name .expression) := by
  rw [elementOffenders_eq_flatMap, List.flatMap_eq_nil_iff] at clean
  refine clean_each found fun item present result among done => ?_
  rw [element, present, if_neg Bool.false_ne_true, map_eq_pure_bind, bind_eq_ok] at done
  obtain ⟨expr, read, rest⟩ := done
  obtain rfl := pure_eq_ok.mp rest
  exact ⟨expr, read, by simpa [optionalOffenders] using clean _ among⟩

theorem Field.clean_properties {items : List Json} {properties : List Property}
    (found : json.child? name = some (.array items))
    (related : List.Forall₂ PropertyRule items properties)
    (clean : propertyOffenders properties = []) : Field.Clean json (.each name .property) := by
  rw [propertyOffenders_eq_flatMap, List.flatMap_eq_nil_iff] at clean
  exact clean_items found related fun _ _ property among rule =>
    ⟨property, rule, clean property among⟩

theorem Field.clean_params {params : List Param} (found : ReadsEach json name param params) :
    Field.Clean json (.each name .binding) :=
  clean_each found fun _ _ _ _ done => (param_eq_ok.mp done).1

theorem functionFields_clean {name : Option String} {params : List Param} {body : List Stmt}
    (rule : FunctionRule json name params body) (clean : stmtsOffenders body = []) :
    ∀ field ∈ functionFields, field.Clean json := by
  obtain ⟨wrapper, _, present, _, statements⟩ := rule.statements
  have own : Field.Clean json (.one "id" .binding) :=
    Field.clean_any rule.id fun _ _ _ done => (binding_eq_ok.mp done).1
  have inner : Field.Clean json (.one "body" .functionBody) :=
    Field.clean_child present ⟨body, statements, clean⟩
  simpa [functionFields] using ⟨own, Field.clean_params rule.parameters, inner⟩

theorem group_clean {kind : DeclKind} {decls : List Declarator} {span : Span}
    (rule : GroupRule json kind decls) (clean : declOffenders span decls = []) :
    Field.Clean json (.first "declarations" .declarator) := by
  match decls, rule.inhabited with
  | .mk name init _ :: rest, _ =>
      refine Field.clean_first rule.each fun _ done => ?_
      exact ⟨name, init, (declarator_eq_ok.mp done).1, by simpa [declOffenders] using clean⟩

theorem exprFields_clean {expr : Expr} (rule : ExprRule json expr) (clean : expr.offenders = []) :
    ∀ field ∈ exprFields json, field.Clean json := by
  cases rule with
  | marked | refusedObject | refusedMember | optionalCall | other => simp [Expr.offenders] at clean
  | ident typed | literal typed => simp [exprFields, typed]
  | array typed elements =>
      simpa [exprFields, typed] using
        Field.clean_elements elements (by simpa [Expr.offenders] using clean)
  | object typed found properties =>
      simpa [exprFields, typed] using
        Field.clean_properties found properties (by simpa [Expr.offenders] using clean)
  | function typed _ _ parts =>
      simpa only [exprFields, typed] using
        functionFields_clean parts (by simpa [Expr.offenders] using clean)
  | arrow typed _ _ present bodyTyped concise done params =>
      rw [Expr.offenders] at clean
      have inner : Field.Clean json (.one "body" .arrowBody) :=
        Field.clean_child present (.inr ⟨by simpa [bodyTyped] using concise, _, done, clean⟩)
      simpa [exprFields, typed] using And.intro (Field.clean_params params) inner
  | arrowBlock typed _ _ present bodyTyped body params =>
      rw [Expr.offenders] at clean
      have inner : Field.Clean json (.one "body" .arrowBody) :=
        Field.clean_child present (.inl ⟨bodyTyped, _, body, clean⟩)
      simpa [exprFields, typed] using And.intro (Field.clean_params params) inner
  | unary typed _ arg | update typed _ arg =>
      simpa [exprFields, typed] using
        Field.clean_expr arg (by simpa [Expr.offenders] using clean)
  | binary typed among _ left right =>
      simp only [Expr.offenders, List.append_eq_nil_iff] at clean
      have both := And.intro (Field.clean_expr left clean.1) (Field.clean_expr right clean.2)
      simp only [List.mem_cons, List.not_mem_nil, or_false] at among
      rcases among with rfl | rfl <;> simpa [exprFields, typed] using both
  | assign typed _ present _ _ done value =>
      simp only [Expr.offenders, List.append_eq_nil_iff] at clean
      simpa [exprFields, typed] using
        And.intro (Field.clean_expr ⟨_, present, done⟩ clean.1) (Field.clean_expr value clean.2)
  | conditional typed test consequent alternate =>
      simp only [Expr.offenders, List.append_eq_nil_iff] at clean
      simpa [exprFields, typed] using
        ⟨Field.clean_expr test clean.1.1, Field.clean_expr consequent clean.1.2,
          Field.clean_expr alternate clean.2⟩
  | sequence typed exprs =>
      simpa [exprFields, typed] using
        Field.clean_exprs exprs (by simpa [Expr.offenders] using clean)
  | index typed computed property object =>
      simp only [Expr.offenders, List.append_eq_nil_iff] at clean
      simpa [exprFields, typed, computed] using
        And.intro (Field.clean_expr object clean.1) (Field.clean_expr property clean.2)
  | member typed plain present identifier _ object =>
      rw [Expr.offenders] at clean
      have named : Field.Clean json (.one "property" .memberName) :=
        Field.clean_child present identifier
      simpa [exprFields, typed, plain] using And.intro (Field.clean_expr object clean) named
  | call typed _ callee args | new typed callee args =>
      simp only [Expr.offenders, List.append_eq_nil_iff] at clean
      simpa [exprFields, typed] using
        And.intro (Field.clean_expr callee clean.1) (Field.clean_exprs args clean.2)

theorem stmtFields_clean {stmt : Stmt} (rule : StmtRule json stmt) (clean : stmt.offenders = []) :
    ∀ field ∈ stmtFields json, field.Clean json := by
  cases rule with
  | marked | labelled | other => simp [Stmt.offenders] at clean
  | exitLoop typed | nextLoop typed | empty typed => simp [stmtFields, typed]
  | var typed group =>
      rw [Stmt.offenders] at clean
      simpa [stmtFields, typed] using group_clean group clean
  | function typed _ _ parts =>
      rw [Stmt.offenders] at clean
      simpa only [stmtFields, typed] using functionFields_clean parts clean
  | block typed body =>
      rw [Stmt.offenders] at clean
      simpa [stmtFields, typed] using Field.clean_stmts body clean
  | cond typed test consequent alternate =>
      simp only [Stmt.offenders, List.append_eq_nil_iff] at clean
      have otherwise : Field.Clean json (.one "alternate" .statement) :=
        Field.clean_any alternate fun _ stmt among done =>
          ⟨stmt, done, by obtain rfl := among; simpa [alternateOffenders] using clean.2⟩
      simpa [stmtFields, typed] using
        ⟨Field.clean_expr test clean.1.1, Field.clean_stmt consequent clean.1.2, otherwise⟩
  | loop typed init test update body =>
      simp only [Stmt.offenders, List.append_eq_nil_iff] at clean
      have head : Field.Clean json (.one "init" .loopHead) :=
        Field.clean_any init fun _ init among done =>
          ⟨init, json.span, done, by obtain rfl := among; simpa using clean.1.1.1⟩
      simpa [stmtFields, typed] using
        ⟨head, Field.clean_optional test clean.1.1.2, Field.clean_optional update clean.1.2,
          Field.clean_stmt body clean.2⟩
  | whileLoop typed test body =>
      simp only [Stmt.offenders, List.append_eq_nil_iff] at clean
      simpa [stmtFields, typed] using
        And.intro (Field.clean_expr test clean.1) (Field.clean_stmt body clean.2)
  | doWhile typed body test =>
      simp only [Stmt.offenders, List.append_eq_nil_iff] at clean
      simpa [stmtFields, typed] using
        And.intro (Field.clean_expr test clean.2) (Field.clean_stmt body clean.1)
  | ret typed arg =>
      rw [Stmt.offenders] at clean
      simpa [stmtFields, typed] using Field.clean_optional arg clean
  | throw typed arg | expr typed arg =>
      rw [Stmt.offenders] at clean
      simpa [stmtFields, typed] using Field.clean_expr arg clean

theorem get?_ne_true (lowered : json.flag name = false) : json.get? name ≠ some (.bool true) := by
  rw [← Json.flag_eq_true.ne]
  simpa using lowered

theorem SupportedExpr.of_kind {kind : String} (typed : json.kind? = some kind)
    (known : kind ∈ exprKinds)
    (plain : kind ∉
      ["FunctionExpression", "ArrowFunctionExpression", "Literal", "CallExpression"]) :
    SupportedExpr json := by
  simp only [List.mem_cons, List.not_mem_nil, or_false, not_or] at plain
  exact ⟨⟨kind, known, typed⟩, by simp [typed, plain], by simp [typed, plain],
    by simp [typed, plain]⟩

theorem SupportedStmt.of_kind {kind : String} (typed : json.kind? = some kind)
    (known : kind ∈ stmtKinds)
    (plain : kind ∉ ["FunctionDeclaration", "BreakStatement", "ContinueStatement"]) :
    SupportedStmt json := by
  simp only [List.mem_cons, List.not_mem_nil, or_false, not_or] at plain
  exact ⟨⟨kind, known, typed⟩, by simp [typed, plain], by simp [typed, plain]⟩

theorem SupportedExpr.of_clean {expr : Expr} (rule : ExprRule json expr)
    (clean : expr.offenders = []) : SupportedExpr json := by
  cases rule with
  | marked | refusedObject | refusedMember | optionalCall | other => simp [Expr.offenders] at clean
  | function typed sync single | arrow typed sync single | arrowBlock typed sync single =>
      exact ⟨⟨_, by decide, typed⟩, fun _ => ⟨get?_ne_true sync, get?_ne_true single⟩,
        by simp [typed], by simp [typed]⟩
  | literal typed rule =>
      refine ⟨⟨_, by decide, typed⟩, by simp [typed], fun _ => ?_, by simp [typed]⟩
      cases rule with
      | bigint => simp [Expr.offenders] at clean
      | _ => simp_all [PlainLiteral]
  | call typed mandatory =>
      exact ⟨⟨_, by decide, typed⟩, by simp [typed], by simp [typed],
        fun _ => get?_ne_true mandatory⟩
  | binary typed among =>
      simp only [List.mem_cons, List.not_mem_nil, or_false] at among
      rcases among with rfl | rfl
      · exact .of_kind typed (by decide) (by decide)
      · exact .of_kind typed (by decide) (by decide)
  | ident typed | array typed | object typed | unary typed | assign typed | update typed
  | conditional typed | sequence typed | index typed | member typed | new typed =>
      exact .of_kind typed (by decide) (by decide)

theorem SupportedStmt.of_clean {stmt : Stmt} (rule : StmtRule json stmt)
    (clean : stmt.offenders = []) : SupportedStmt json := by
  cases rule with
  | marked | labelled | other => simp [Stmt.offenders] at clean
  | function typed sync single =>
      exact ⟨⟨_, by decide, typed⟩, fun _ => ⟨get?_ne_true sync, get?_ne_true single⟩,
        by simp [typed]⟩
  | exitLoop typed unlabelled | nextLoop typed unlabelled =>
      exact ⟨⟨_, by decide, typed⟩, by simp [typed], fun _ => unlabelled⟩
  | var typed | block typed | cond typed | loop typed | whileLoop typed | doWhile typed
  | ret typed | throw typed | expr typed | empty typed =>
      exact .of_kind typed (by decide) (by decide)

end

theorem Site.Clean.supported {site : Site} (clean : site.Clean) : site.Supported := by
  obtain ⟨role, json⟩ := site
  cases role with
  | program =>
      obtain ⟨program, read, _⟩ := clean
      exact (program_eq_ok.mp read).1
  | statement =>
      obtain ⟨stmt, read, clean⟩ := clean
      exact .of_clean (stmt_eq_ok.mp read) clean
  | expression =>
      obtain ⟨expr, read, clean⟩ := clean
      exact .of_clean (expr_eq_ok.mp read) clean
  | loopHead =>
      obtain ⟨init, span, read, clean⟩ := clean
      cases loopInit_eq_ok.mp read with
      | decl typed _ => exact .inl typed
      | expr _ _ inner =>
          rw [LoopInit.offenders] at clean
          exact .inr (.of_clean (expr_eq_ok.mp inner) clean)
  | arrowBody =>
      rcases clean with ⟨typed, _⟩ | ⟨_, expr, read, clean⟩
      · exact .inl typed
      · exact .inr (.of_clean (expr_eq_ok.mp read) clean)
  | property =>
      obtain ⟨property, rule, _⟩ := clean
      cases rule with
      | named typed init noMethod | computed typed init noMethod =>
          exact ⟨typed, init, get?_ne_true noMethod⟩
  | propertyName =>
      obtain ⟨name, rule⟩ := clean
      cases rule with
      | ident typed => exact .inl typed
      | string typed rule | number typed rule =>
          exact .inr ⟨typed, by cases rule; simp_all [PlainLiteral]⟩
  | binding | memberName => exact clean
  | declarator | functionBody => trivial

/-- What a clean node is made of is clean. -/
theorem Site.Clean.children {site child : Site} (clean : site.Clean)
    (below : child ∈ site.children) : child.Clean := by
  obtain ⟨field, among, inside⟩ := List.mem_flatMap.mp below
  suffices fields : ∀ field ∈ site.fields, field.Clean site.json from
    fields field among child inside
  obtain ⟨role, json⟩ := site
  cases role with
  | program =>
      obtain ⟨program, read, clean⟩ := clean
      simpa [Site.fields] using Field.clean_stmts (program_eq_ok.mp read).2.1 clean
  | statement =>
      obtain ⟨stmt, read, clean⟩ := clean
      exact stmtFields_clean (stmt_eq_ok.mp read) clean
  | expression =>
      obtain ⟨expr, read, clean⟩ := clean
      exact exprFields_clean (expr_eq_ok.mp read) clean
  | loopHead =>
      obtain ⟨init, span, read, clean⟩ := clean
      cases loopInit_eq_ok.mp read with
      | decl typed group =>
          rw [LoopInit.offenders] at clean
          simpa [Site.fields, stmtFields, typed] using group_clean group clean
      | expr typed other inner =>
          rw [LoopInit.offenders] at clean
          simpa [Site.fields, typed, other] using exprFields_clean (expr_eq_ok.mp inner) clean
  | arrowBody =>
      rcases clean with ⟨typed, body, statements, clean⟩ | ⟨concise, expr, read, clean⟩
      · simpa [Site.fields, stmtFields, typed] using Field.clean_stmts statements clean
      · simpa [Site.fields, concise] using exprFields_clean (expr_eq_ok.mp read) clean
  | functionBody =>
      obtain ⟨body, statements, clean⟩ := clean
      simpa [Site.fields] using Field.clean_stmts statements clean
  | declarator =>
      obtain ⟨name, init, rule, clean⟩ := clean
      have named : Field.Clean json (.one "id" .binding) :=
        Field.clean_one rule.id fun _ done => (binding_eq_ok.mp done).1
      simpa [Site.fields] using And.intro named (Field.clean_optional rule.value clean)
  | property =>
      obtain ⟨property, rule, clean⟩ := clean
      cases rule with
      | named _ _ _ plain present key value =>
          rw [Property.offenders] at clean
          have named : Field.Clean json (.one "key" .propertyName) :=
            Field.clean_child present ⟨_, key⟩
          simpa [Site.fields, plain] using And.intro named (Field.clean_expr value clean)
      | computed _ _ _ computed key value =>
          simp only [Property.offenders, List.append_eq_nil_iff] at clean
          simpa [Site.fields, computed] using
            And.intro (Field.clean_expr key clean.1) (Field.clean_expr value clean.2)
  | binding | propertyName | memberName => simp [Site.fields]

theorem Site.Clean.reached {site below : Site} (clean : site.Clean) (reached : site.Reaches below) :
    below.Clean := by
  induction reached with
  | refl => exact clean
  | tail _ step ih => exact ih.children step

end Estree

/-- Of a program that is read and written, every node it is made of is supported where it stands. -/
theorem reached_supported {json : Json} {program : Program} {style : Style} {text : String}
    (read : Estree.program json = .ok program) (written : program.transform style = .ok text)
    {site : Estree.Site} (reached : Estree.Site.Reaches ⟨.program, json⟩ site) :
    site.Supported := by
  have clean : Estree.Site.Clean ⟨.program, json⟩ :=
    ⟨program, read, offenders_eq_nil_of_transform written⟩
  exact (clean.reached reached).supported

theorem reached_supported_arrow :
    let node (kind : String) (fields : List (String × Json)) : Json :=
      .object (("type", .string kind) :: fields)
    let ident (name : String) := node "Identifier" [("name", .string name)]
    let result := node "CallExpression"
      [("callee", ident "f"), ("arguments", .array [ident "o"]), ("optional", .bool false)]
    let arrow := node "ArrowFunctionExpression" [("params", .array []), ("body", result)]
    let property := node "Property"
      [("kind", .string "init"), ("computed", .bool false), ("key", ident "k"), ("value", arrow)]
    let object := node "ObjectExpression" [("properties", .array [property])]
    let declarator := node "VariableDeclarator" [("id", ident "o"), ("init", object)]
    let group := node "VariableDeclaration"
      [("kind", .string "let"), ("declarations", .array [declarator])]
    let json := node "Program" [("body", .array [group])]
    let program : Program :=
      ⟨[.var .lexical [.mk "o" (some (.object [.named (.ident "k")
        (.arrow [] (.call (.ident "f" {}) [.ident "o" {}] {}) {} {}) false] {})) {}] {}], {}⟩
    Estree.program json = .ok program ∧
      program.transform {} = .ok "let o$0 = ({k: (function() { return f(o$0); })});\n" ∧
      Estree.Site.Reaches ⟨.program, json⟩ ⟨.arrowBody, result⟩ ∧
      Estree.Site.Supported ⟨.arrowBody, result⟩ := by
  intro node ident result arrow property object declarator group json program
  have read : Estree.program json = .ok program := by with_unfolding_all rfl
  have written :
      program.transform {} = .ok "let o$0 = ({k: (function() { return f(o$0); })});\n" := by
    decide +kernel
  have reached : Estree.Site.Reaches ⟨.program, json⟩ ⟨.arrowBody, result⟩ := by
    have down (position : Nat) {site : Estree.Site} (child : Estree.Site)
        (found : site.children[position]? = some child) {below : Estree.Site}
        (rest : child.Reaches below) : site.Reaches below :=
      .head (List.mem_of_getElem? found) rest
    apply down 0 ⟨.statement, group⟩ rfl
    apply down 0 ⟨.declarator, declarator⟩ rfl
    apply down 1 ⟨.expression, object⟩ rfl
    apply down 0 ⟨.property, property⟩ rfl
    apply down 1 ⟨.expression, arrow⟩ rfl
    apply down 0 ⟨.arrowBody, result⟩ rfl
    exact .refl
  exact ⟨read, written, reached, reached_supported read written reached⟩

end Freshen

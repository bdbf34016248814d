import Freshen.Proofs.NodeFields

/-!
What each type of ESTree node is read as, one rule for each way in which the reading of a node can
succeed. A node is read as an expression or as a statement exactly if one of the rules says so.
-/

namespace Freshen.Estree

def binding (json : Json) : Load String := do bindingName (← Node.of json)

def element (json : Json) : Load (Option Expr) :=
  if json.isNull then pure none else some <$> expr json

def HasOperator {α : Type} (json : Json) (ofToken? : String → Option α) (op : α) : Prop :=
  ∃ token, json.child? "operator" = some (.string token) ∧ ofToken? token = some op

/-- Literals. A regular expression goes before all else, and a big integer before a value. -/
inductive LiteralRule (json : Json) : Expr → Prop
  | regex {regex : Json} {pattern flags : String} :
    json.child? "regex" = some regex → regex.get? "pattern" = some (.string pattern) →
      regex.get? "flags" = some (.string flags) →
      LiteralRule json (.regex pattern flags json.span)
  | bigint {value : Json} :
    json.child? "regex" = none → json.child? "bigint" = some value →
      LiteralRule json (.unsupported "BigIntLiteral" json.span)
  | null :
    json.child? "regex" = none → json.child? "bigint" = none → json.child? "value" = none →
      LiteralRule json (.null json.span)
  | bool {value : Bool} :
    json.child? "regex" = none → json.child? "bigint" = none →
      json.child? "value" = some (.bool value) → LiteralRule json (.bool value json.span)
  | number {value : Json} {number : Double} :
    json.child? "regex" = none → json.child? "bigint" = none →
      json.child? "value" = some value → value.number? = some number → number.isFinite →
      LiteralRule json (.number number json.span)
  | string {value : String} :
    json.child? "regex" = none → json.child? "bigint" = none →
      json.child? "value" = some (.string value) → LiteralRule json (.string value json.span)

inductive PropertyNameRule (json : Json) : PropertyName → Prop
  | ident {name : String} :
    json.kind? = some "Identifier" → json.child? "name" = some (.string name) →
      PropertyNameRule json (.ident name)
  | string {value : String} :
    json.kind? = some "Literal" → LiteralRule json (.string value json.span) →
      PropertyNameRule json (.string value)
  | number {value : Double} :
    json.kind? = some "Literal" → LiteralRule json (.number value json.span) →
      PropertyNameRule json (.number value)

inductive PropertyRule (json : Json) : Property → Prop
  | named {key : Json} {name : PropertyName} {value : Expr} :
    json.kind? = some "Property" → json.child? "kind" = some (.string "init") →
      json.flag "method" = false → json.flag "computed" = false →
      json.child? "key" = some key → PropertyNameRule key name → Reads json "value" expr value →
      PropertyRule json (.named name value (json.flag "shorthand"))
  | computed {key value : Expr} :
    json.kind? = some "Property" → json.child? "kind" = some (.string "init") →
      json.flag "method" = false → json.flag "computed" = true →
      Reads json "key" expr key → Reads json "value" expr value →
      PropertyRule json (.computed key value (json.flag "shorthand"))

/-- The parts of a function. What type the node around its body has does not matter. -/
structure FunctionRule (json : Json) (name : Option String) (params : List Param)
    (body : List Stmt) : Prop where
  id : ReadsAny json "id" binding name
  parameters : ReadsEach json "params" param params
  statements : ∃ wrapper kind, json.child? "body" = some wrapper ∧ wrapper.kind? = some kind ∧
    ReadsEach wrapper "body" stmt body

def functionKinds : List String :=
  ["FunctionDeclaration", "FunctionExpression", "ArrowFunctionExpression"]

def exprKinds : List String :=
  ["Identifier", "Literal", "ArrayExpression", "ObjectExpression", "FunctionExpression",
    "ArrowFunctionExpression", "UnaryExpression", "BinaryExpression", "LogicalExpression",
    "AssignmentExpression", "UpdateExpression", "ConditionalExpression", "SequenceExpression",
    "MemberExpression", "CallExpression", "NewExpression"]

/-- The rules of reading expressions, one or more for each type. -/
inductive ExprRule (json : Json) : Expr → Prop
  | marked {kind flavor : String} :
    json.kind? = some kind → functionFlavor (⟨kind⟩ : Node json) = some flavor →
      ExprRule json (.unsupported flavor json.span)
  | ident {name : String} :
    json.kind? = some "Identifier" → json.child? "name" = some (.string name) →
      ExprRule json (.ident name json.span)
  | literal {expr : Expr} :
    json.kind? = some "Literal" → LiteralRule json expr → ExprRule json expr
  | array {elements : List (Option Expr)} :
    json.kind? = some "ArrayExpression" → ReadsEach json "elements" element elements →
      ExprRule json (.array elements json.span)
  | object {items : List Json} {properties : List Property} :
    json.kind? = some "ObjectExpression" → json.child? "properties" = some (.array items) →
      List.Forall₂ PropertyRule items properties →
      ExprRule json (.object properties json.span)
  | refusedObject {items : List Json} {kind : String} :
    json.kind? = some "ObjectExpression" → json.child? "properties" = some (.array items) →
      (items.mapM property).run = .ok (.error kind) →
      ExprRule json (.unsupported kind json.span)
  | function {name : Option String} {params : List Param} {body : List Stmt} :
    json.kind? = some "FunctionExpression" → json.flag "async" = false →
      json.flag "generator" = false → FunctionRule json name params body →
      ExprRule json (.function name params body json.span json.span)
  | arrow {result : Json} {kind : String} {params : List Param} {resultExpr : Expr} :
    json.kind? = some "ArrowFunctionExpression" → json.flag "async" = false →
      json.flag "generator" = false → json.child? "body" = some result →
      result.kind? = some kind → kind ≠ "BlockStatement" → expr result = .ok resultExpr →
      ReadsEach json "params" param params →
      ExprRule json (.arrow params resultExpr json.span json.span)
  | arrowBlock {block : Json} {params : List Param} {body : List Stmt} :
    json.kind? = some "ArrowFunctionExpression" → json.flag "async" = false →
      json.flag "generator" = false → json.child? "body" = some block →
      block.kind? = some "BlockStatement" → ReadsEach block "body" stmt body →
      ReadsEach json "params" param params →
      ExprRule json (.arrowBlock params body json.span json.span)
  | unary {op : UnaryOp} {arg : Expr} :
    json.kind? = some "UnaryExpression" → HasOperator json UnaryOp.ofToken? op →
      Reads json "argument" expr arg → ExprRule json (.unary op arg json.span)
  | binary {kind : String} {op : BinaryOp} {left right : Expr} :
    json.kind? = some kind → kind ∈ ["BinaryExpression", "LogicalExpression"] →
      HasOperator json BinaryOp.ofToken? op → Reads json "left" expr left →
      Reads json "right" expr right → ExprRule json (.binary op left right json.span)
  | assign {op : AssignOp} {target : Json} {kind : String} {targetExpr value : Expr} :
    json.kind? = some "AssignmentExpression" → HasOperator json AssignOp.ofToken? op →
      json.child? "left" = some target → target.kind? = some kind →
      kind ∈ ["Identifier", "MemberExpression"] → expr target = .ok targetExpr →
      Reads json "right" expr value → ExprRule json (.assign op targetExpr value json.span)
  | update {op : UpdateOp} {arg : Expr} :
    json.kind? = some "UpdateExpression" → HasOperator json UpdateOp.ofToken? op →
      Reads json "argument" expr arg →
      ExprRule json (.update op (json.flag "prefix") arg json.span)
  | conditional {test consequent alternate : Expr} :
    json.kind? = some "ConditionalExpression" → Reads json "test" expr test →
      Reads json "consequent" expr consequent → Reads json "alternate" expr alternate →
      ExprRule json (.conditional test consequent alternate json.span)
  | sequence {exprs : List Expr} :
    json.kind? = some "SequenceExpression" → ReadsEach json "expressions" expr exprs →
      ExprRule json (.sequence exprs json.span)
  | index {object property : Expr} :
    json.kind? = some "MemberExpression" → json.flag "computed" = true →
      Reads json "property" expr property → Reads json "object" expr object →
      ExprRule json (.index object property json.span)
  | member {property : Json} {name : String} {object : Expr} :
    json.kind? = some "MemberExpression" → json.flag "computed" = false →
      json.child? "property" = some property → property.kind? = some "Identifier" →
      property.child? "name" = some (.string name) → Reads json "object" expr object →
      ExprRule json (.member object name json.span)
  | refusedMember {property : Json} {kind : String} :
    json.kind? = some "MemberExpression" → json.flag "computed" = false →
      json.child? "property" = some property → property.kind? = some kind →
      kind ≠ "Identifier" → ExprRule json (.unsupported kind property.span)
  | call {callee : Expr} {args : List Expr} :
    json.kind? = some "CallExpression" → json.flag "optional" = false →
      Reads json "callee" expr callee → ReadsEach json "arguments" expr args →
      ExprRule json (.call callee args json.span)
  | optionalCall :
    json.kind? = some "CallExpression" → json.flag "optional" = true →
      ExprRule json (.unsupported "CallExpression" json.span)
  | new {callee : Expr} {args : List Expr} :
    json.kind? = some "NewExpression" → Reads json "callee" expr callee →
      ReadsEach json "arguments" expr args → ExprRule json (.new callee args json.span)
  | other {kind : String} :
    json.kind? = some kind → functionFlavor (⟨kind⟩ : Node json) = none → kind ∉ exprKinds →
      ExprRule json (.unsupported kind json.span)

structure DeclaratorRule (json : Json) (name : String) (init : Option Expr) : Prop where
  typed : ∃ kind, json.kind? = some kind
  id : Reads json "id" binding name
  value : ReadsAny json "init" expr init

structure GroupRule (json : Json) (kind : DeclKind) (decls : List Declarator) : Prop where
  word : ∃ word, json.child? "kind" = some (.string word) ∧ DeclKind.ofWord? word = some kind
  each : ReadsEach json "declarations" declarator decls
  inhabited : decls ≠ []

inductive LoopInitRule (json : Json) : LoopInit → Prop
  | decl {kind : DeclKind} {decls : List Declarator} :
    json.kind? = some "VariableDeclaration" → GroupRule json kind decls →
      LoopInitRule json (.decl kind decls)
  | expr {kind : String} {expr : Expr} :
    json.kind? = some kind → kind ≠ "VariableDeclaration" → Estree.expr json = .ok expr →
      LoopInitRule json (.expr expr)

def stmtKinds : List String :=
  ["VariableDeclaration", "FunctionDeclaration", "BlockStatement", "IfStatement", "ForStatement",
    "WhileStatement", "DoWhileStatement", "BreakStatement", "ContinueStatement",
    "ReturnStatement", "ThrowStatement", "ExpressionStatement", "EmptyStatement"]

/-- The rules of reading statements, one or more for each type. -/
inductive StmtRule (json : Json) : Stmt → Prop
  | var {kind : DeclKind} {decls : List Declarator} :
    json.kind? = some "VariableDeclaration" → GroupRule json kind decls →
      StmtRule json (.var kind decls json.span)
  | marked {flavor : String} :
    json.kind? = some "FunctionDeclaration" →
      functionFlavor (⟨"FunctionDeclaration"⟩ : Node json) = some flavor →
      StmtRule json (.unsupported flavor json.span)
  | function {name : Option String} {params : List Param} {body : List Stmt} :
    json.kind? = some "FunctionDeclaration" → json.flag "async" = false →
      json.flag "generator" = false → FunctionRule json name params body →
      StmtRule json (.function name params body json.span json.span)
  | block {body : List Stmt} :
    json.kind? = some "BlockStatement" → ReadsEach json "body" stmt body →
      StmtRule json (.block body json.span)
  | cond {test : Expr} {consequent : Stmt} {alternate : Option Stmt} :
    json.kind? = some "IfStatement" → Reads json "test" expr test →
      Reads json "consequent" stmt consequent → ReadsAny json "alternate" stmt alternate →
      StmtRule json (.cond test consequent alternate json.span)
  | loop {init : Option LoopInit} {test update : Option Expr} {body : Stmt} :
    json.kind? = some "ForStatement" → ReadsAny json "init" loopInit init →
      ReadsAny json "test" expr test → ReadsAny json "update" expr update →
      Reads json "body" stmt body →
      StmtRule json (.loop (init.getD .absent) test update body json.span)
  | whileLoop {test : Expr} {body : Stmt} :
    json.kind? = some "WhileStatement" → Reads json "test" expr test →
      Reads json "body" stmt body → StmtRule json (.whileLoop test body json.span)
  | doWhile {body : Stmt} {test : Expr} :
    json.kind? = some "DoWhileStatement" → Reads json "body" stmt body →
      Reads json "test" expr test → StmtRule json (.doWhile body test json.span)
  | exitLoop :
    json.kind? = some "BreakStatement" → json.child? "label" = none →
      StmtRule json (.exitLoop json.span)
  | nextLoop :
    json.kind? = some "ContinueStatement" → json.child? "label" = none →
      StmtRule json (.nextLoop json.span)
  | labelled {kind : String} {label : Json} :
    json.kind? = some kind → kind ∈ ["BreakStatement", "ContinueStatement"] →
      json.child? "label" = some label → StmtRule json (.unsupported kind json.span)
  | ret {arg : Option Expr} :
    json.kind? = some "ReturnStatement" → ReadsAny json "argument" expr arg →
      StmtRule json (.ret arg json.span)
  | throw {arg : Expr} :
    json.kind? = some "ThrowStatement" → Reads json "argument" expr arg →
      StmtRule json (.throw arg json.span)
  | expr {inner : Expr} :
    json.kind? = some "ExpressionStatement" → Reads json "expression" expr inner →
      StmtRule json (.expr inner json.span)
  | empty : json.kind? = some "EmptyStatement" → StmtRule json (.empty json.span)
  | other {kind : String} :
    json.kind? = some kind → kind ∉ stmtKinds → StmtRule json (.unsupported kind json.span)

section

variable {json : Json} {α : Type}

theorem bindingName_eq_ok {node : Node json} {name : String} :
    bindingName node = .ok name ↔
      node.kind = "Identifier" ∧ json.child? "name" = some (.string name) := by
  rw [bindingName]
  split
  next identifier => simp [identifier, Node.string_eq_ok]
  next other => simp [other, throw_ne_ok]

theorem binding_eq_ok {name : String} :
    binding json = .ok name ↔
      json.kind? = some "Identifier" ∧ json.child? "name" = some (.string name) := by
  simp only [binding, bind_eq_ok, Node.of_eq_ok, bindingName_eq_ok]
  constructor
  · rintro ⟨node, typed, identifier, named⟩
    exact ⟨identifier ▸ typed, named⟩
  · rintro ⟨typed, named⟩
    exact ⟨⟨"Identifier"⟩, typed, rfl, named⟩

theorem param_eq_ok {param : Param} :
    Estree.param json = .ok param ↔
      json.kind? = some "Identifier" ∧ json.child? "name" = some (.string param.name) ∧
        json.span = param.span := by
  simp only [Estree.param, bind_eq_ok, Node.of_eq_ok, bindingName_eq_ok, pure_eq_ok]
  constructor
  · rintro ⟨node, typed, name, ⟨identifier, named⟩, rfl⟩
    exact ⟨identifier ▸ typed, named, rfl⟩
  · rintro ⟨typed, named, span⟩
    exact ⟨⟨"Identifier"⟩, typed, param.name, ⟨rfl, named⟩, by rw [Node.span_eq, span]⟩

theorem params_eq_ok {node : Node json} {params : List Param} :
    Estree.params node = .ok params ↔ ReadsEach json "params" param params := by
  rw [Estree.params, ← bind_pure (node.items "params" >>= _), bind_assoc]
  simp only [Node.bind_items param, pure_eq_ok]
  simp

theorem operator_eq_ok {node : Node json} {ofToken? : String → Option α} {expected : String}
    {op : α} : operator node ofToken? expected = .ok op ↔ HasOperator json ofToken? op := by
  rw [operator, bind_eq_ok, HasOperator]
  simp only [Node.string_eq_ok]
  apply exists_congr
  intro token
  apply and_congr_right
  intro _
  cases ofToken? token <;> simp [throw_ne_ok, pure_eq_ok]

theorem regexPart_eq_ok {node : Node json} {regex : Json} {name value : String} :
    regexPart node regex name = .ok value ↔ regex.get? name = some (.string value) := by
  rw [regexPart]
  cases regex.get? name with
  | none => simp
  | some found => cases found <;> simp [Json.string?]

theorem finiteNumber_eq_ok {node : Node json} {value result : Double} :
    finiteNumber node value = .ok result ↔ value = result ∧ value.isFinite := by
  rw [finiteNumber]
  split <;> simp_all

theorem literal_eq (node : Node json) :
    literal node =
      match json.child? "regex", json.child? "bigint", json.child? "value" with
      | some regex, _, _ => do
        return .regex (← regexPart node regex "pattern") (← regexPart node regex "flags") json.span
      | none, some _, _ => .ok (.unsupported "BigIntLiteral" json.span)
      | none, none, none => .ok (.null json.span)
      | none, none, some (.bool value) => .ok (.bool value json.span)
      | none, none, some (.whole value) => do
        return .number (← finiteNumber node (.ofInt value)) json.span
      | none, none, some (.double value) => do
        return .number (← finiteNumber node value) json.span
      | none, none, some (.string value) => .ok (.string value json.span)
      | none, none, some _ => .error (node.invalid "value" "a literal value") := by
  rw [literal, Node.isSome_field?, ← Node.map_field? node "regex"]
  cases node.field? "regex" with
  | some part => rfl
  | none =>
      cases json.child? "bigint" with
      | some value => rfl
      | none =>
          rw [Json.child?]
          cases json.get? "value" with
          | none => rfl
          | some value => cases value <;> rfl

theorem literalRule_of_ok {node : Node json} {expr : Expr} (read : literal node = .ok expr) :
    LiteralRule json expr := by
  rw [literal_eq] at read
  cases regex : json.child? "regex" with
  | some part =>
      simp only [regex, bind_eq_ok, regexPart_eq_ok, pure_eq_ok] at read
      obtain ⟨pattern, first, flags, second, rfl⟩ := read
      exact .regex regex first second
  | none =>
      cases bigint : json.child? "bigint" with
      | some value =>
          rw [regex, bigint] at read
          cases read
          exact .bigint regex bigint
      | none =>
          cases found : json.child? "value" with
          | none =>
              rw [regex, bigint, found] at read
              cases read
              exact .null regex bigint found
          | some value =>
              cases value with
              | whole value | double value =>
                  simp only [regex, bigint, found, bind_eq_ok, finiteNumber_eq_ok,
                    pure_eq_ok] at read
                  obtain ⟨_, ⟨rfl, finite⟩, rfl⟩ := read
                  exact .number regex bigint found rfl finite
              | bool value =>
                  rw [regex, bigint, found] at read
                  cases read
                  exact .bool regex bigint found
              | string value =>
                  rw [regex, bigint, found] at read
                  cases read
                  exact .string regex bigint found
              | null | array _ | object _ =>
                  rw [regex, bigint, found] at read
                  cases read

theorem literal_eq_ok {node : Node json} {expr : Expr} :
    literal node = .ok expr ↔ LiteralRule json expr := by
  constructor
  · exact literalRule_of_ok
  · intro rule
    rw [literal_eq]
    cases rule with
    | regex found first second =>
        simp only [found, bind_eq_ok, regexPart_eq_ok, pure_eq_ok]
        exact ⟨_, first, _, second, rfl⟩
    | bigint regex found => rw [regex, found]
    | null regex bigint found => rw [regex, bigint, found]
    | bool regex bigint found => rw [regex, bigint, found]
    | string regex bigint found => rw [regex, bigint, found]
    | @number value number regex bigint found same finite =>
        cases value with
        | whole value | double value =>
            cases same
            simp only [regex, bigint, found, bind_eq_ok, finiteNumber_eq_ok, pure_eq_ok]
            exact ⟨_, ⟨rfl, finite⟩, rfl⟩
        | _ => cases same

theorem functionFlavor_eq_none {kind : String} :
    functionFlavor (⟨kind⟩ : Node json) = none ↔
      (kind ∈ functionKinds → json.flag "async" = false ∧ json.flag "generator" = false) := by
  rw [functionFlavor, functionKinds, Node.flag_eq, Node.flag_eq]
  split
  next member =>
    cases json.flag "async" <;> cases json.flag "generator" <;> simp [member]
  next outside => simp [outside]

theorem unmarked_of_not_mem (kind : String) (outside : kind ∉ functionKinds) :
    functionFlavor (⟨kind⟩ : Node json) = none :=
  functionFlavor_eq_none.mpr (absurd · outside)

theorem function_eq_ok {node : Node json} {name : Option String} {params : List Param}
    {body : List Stmt} :
    function node = .ok (name, params, body) ↔ FunctionRule json name params body := by
  rw [function]
  simp only [bind_eq_ok, Node.of_eq_ok, Node.field_eq_ok, params_eq_ok, pure_eq_ok,
    Prod.mk.injEq, Node.bind_items stmt,
    Node.mapM_field? fun json => do bindingName (← Node.of json)]
  constructor
  · rintro ⟨_, named, _, taken, wrapper, found, node, typed, _, each, rfl, rfl, rfl⟩
    exact ⟨named, taken, wrapper.val, node.kind, found, typed, each⟩
  · rintro ⟨named, taken, wrapper, kind, found, typed, each⟩
    exact ⟨name, named, params, taken, ⟨wrapper, Json.height_lt_of_child? found⟩, found, ⟨kind⟩,
      typed, body, each, rfl, rfl, rfl⟩

theorem declarator_eq_ok {name : String} {init : Option Expr} {span : Span} :
    declarator json = .ok (.mk name init span) ↔
      DeclaratorRule json name init ∧ json.span = span := by
  rw [declarator]
  simp only [bind_eq_ok, Node.of_eq_ok, Node.field_eq_ok, pure_eq_ok, Declarator.mk.injEq,
    bindingName_eq_ok, Node.mapM_field? expr]
  constructor
  · rintro ⟨⟨kind⟩, typed, id, found, ⟨_⟩, identifier, _, ⟨rfl, named⟩, _, value, rfl, rfl, rfl⟩
    exact ⟨⟨⟨kind, typed⟩, ⟨id.val, found, binding_eq_ok.mpr ⟨identifier, named⟩⟩, value⟩, rfl⟩
  · rintro ⟨⟨⟨kind, typed⟩, ⟨id, found, bound⟩, value⟩, rfl⟩
    obtain ⟨identifier, named⟩ := binding_eq_ok.mp bound
    exact ⟨⟨kind⟩, typed, ⟨id, Json.height_lt_of_child? found⟩, found, ⟨"Identifier"⟩, identifier,
      name, ⟨rfl, named⟩, init, value, rfl, rfl, rfl⟩

theorem declarations_eq_ok {node : Node json} {kind : DeclKind} {decls : List Declarator} :
    declarations node = .ok (kind, decls) ↔ GroupRule json kind decls := by
  rw [declarations]
  simp only [bind_eq_ok, Node.string_eq_ok]
  constructor
  · rintro ⟨word, found, rest⟩
    cases same : DeclKind.ofWord? word with
    | none =>
        simp only [same, throw_ne_ok] at rest
    | some other =>
        simp only [same, Node.bind_items declarator] at rest
        obtain ⟨others, each, rest⟩ := rest
        split at rest
        next empty => simp only [bind_eq_ok, throw_ne_ok, false_and, exists_false] at rest
        next inhabited =>
          obtain ⟨rfl, rfl⟩ := Prod.mk.inj (pure_eq_ok.mp rest)
          exact ⟨⟨word, found, same⟩, each, fun empty => inhabited (empty ▸ rfl)⟩
  · rintro ⟨⟨word, found, same⟩, each, inhabited⟩
    refine ⟨word, found, ?_⟩
    simp only [same, Node.bind_items declarator]
    refine ⟨decls, each, ?_⟩
    rw [if_neg (by simpa using inhabited)]
    rfl

/-! Properties may also be refused, which is no fault of the whole program. -/

theorem run_bind_eq_ok {β : Type} {first : ExceptT String Load α}
    {next : α → ExceptT String Load β} {result : β} :
    (first >>= next).run = .ok (.ok result) ↔
      ∃ value, first.run = .ok (.ok value) ∧ (next value).run = .ok (.ok result) := by
  rw [ExceptT.run_bind, bind_eq_ok]
  constructor
  · rintro ⟨outcome, read, rest⟩
    cases outcome with
    | ok value => exact ⟨value, read, rest⟩
    | error kind => cases rest
  · rintro ⟨value, read, rest⟩
    exact ⟨.ok value, read, rest⟩

theorem run_lift_eq_ok {first : Load α} {result : α} :
    (liftM first : ExceptT String Load α).run = .ok (.ok result) ↔ first = .ok result := by
  have lifted : (liftM first : ExceptT String Load α).run = Except.ok <$> first := rfl
  rw [lifted, map_eq_pure_bind, bind_eq_ok]
  simp [pure_eq_ok]

theorem run_pure_eq_ok {value result : α} :
    (pure value : ExceptT String Load α).run = .ok (.ok result) ↔ value = result := by
  simp [pure_eq_ok]

theorem run_throw_ne_ok {kind : String} {result : α} :
    (throwThe String kind : ExceptT String Load α).run = .ok (.ok result) ↔ False := by
  have thrown : (throwThe String kind : ExceptT String Load α).run = .ok (.error kind) := rfl
  simp [thrown]

theorem run_fail_ne_ok {cause : LoadError} {result : α} :
    (throwThe LoadError cause : ExceptT String Load α).run = .ok (.ok result) ↔ False := by
  have thrown : (throwThe LoadError cause : ExceptT String Load α).run = .error cause := rfl
  simp [thrown]

theorem run_mapM_eq_ok {β : Type} {read : α → ExceptT String Load β} {items : List α}
    {results : List β} :
    (items.mapM read).run = .ok (.ok results) ↔
      List.Forall₂ (fun item result => (read item).run = .ok (.ok result)) items results := by
  induction items generalizing results with
  | nil => cases results <;> simp [pure_eq_ok]
  | cons item rest ih =>
      rw [List.mapM_cons]
      simp only [run_bind_eq_ok, ih, run_pure_eq_ok]
      cases results with
      | nil => simp
      | cons result more => simp

theorem propertyName_eq_ok {name : PropertyName} :
    (propertyName json).run = .ok (.ok name) ↔ PropertyNameRule json name := by
  rw [propertyName]
  simp only [run_bind_eq_ok, run_lift_eq_ok, Node.of_eq_ok]
  constructor
  · rintro ⟨⟨kind⟩, typed, rest⟩
    split at rest
    next same =>
      simp only [run_bind_eq_ok, run_lift_eq_ok, Node.string_eq_ok, run_pure_eq_ok] at rest
      obtain ⟨_, named, rfl⟩ := rest
      exact .ident (same ▸ typed) named
    next same =>
      simp only [run_bind_eq_ok, run_lift_eq_ok, literal_eq_ok] at rest
      obtain ⟨expr, rule, rest⟩ := rest
      cases rule with
      | string regex bigint found =>
          obtain rfl := run_pure_eq_ok.mp rest
          exact .string (same ▸ typed) (.string regex bigint found)
      | number regex bigint found same' finite =>
          obtain rfl := run_pure_eq_ok.mp rest
          exact .number (same ▸ typed) (.number regex bigint found same' finite)
      | _ => exact (run_fail_ne_ok.mp rest).elim
    next => exact (run_throw_ne_ok.mp rest).elim
  · intro rule
    cases rule with
    | ident typed named =>
        refine ⟨⟨"Identifier"⟩, typed, ?_⟩
        simp only [run_bind_eq_ok, run_lift_eq_ok, Node.string_eq_ok, run_pure_eq_ok]
        exact ⟨_, named, rfl⟩
    | string typed literal =>
        refine ⟨⟨"Literal"⟩, typed, ?_⟩
        simp only [run_bind_eq_ok, run_lift_eq_ok, literal_eq_ok]
        exact ⟨_, literal, rfl⟩
    | number typed literal =>
        refine ⟨⟨"Literal"⟩, typed, ?_⟩
        simp only [run_bind_eq_ok, run_lift_eq_ok, literal_eq_ok]
        exact ⟨_, literal, rfl⟩

theorem property_eq_ok {value : Property} :
    (property json).run = .ok (.ok value) ↔ PropertyRule json value := by
  rw [property]
  simp only [run_bind_eq_ok, run_lift_eq_ok, Node.of_eq_ok, Node.flag_eq]
  constructor
  · rintro ⟨⟨kind⟩, typed, rest⟩
    split at rest
    next other =>
      obtain ⟨_, thrown, _⟩ := run_bind_eq_ok.mp rest
      exact (run_throw_ne_ok.mp thrown).elim
    next same =>
      obtain rfl := Decidable.not_not.mp same
      simp only [run_bind_eq_ok, run_lift_eq_ok, Node.string_eq_ok] at rest
      obtain ⟨word, init, rest⟩ := rest
      split at rest
      next special =>
        obtain ⟨_, thrown, _⟩ := run_bind_eq_ok.mp rest
        exact (run_throw_ne_ok.mp thrown).elim
      next plain =>
        have ordinary : word = "init" ∧ json.flag "method" = false := by simpa using plain
        obtain ⟨rfl, noMethod⟩ := ordinary
        simp only [run_bind_eq_ok, run_lift_eq_ok, Node.field_eq_ok] at rest
        obtain ⟨key, found, rest⟩ := rest
        cases computed : json.flag "computed" with
        | true =>
            simp only [computed, if_true, run_bind_eq_ok, run_lift_eq_ok, Node.field_eq_ok,
              run_pure_eq_ok] at rest
            obtain ⟨_, keyRead, _, present, _, valueRead, rfl⟩ := rest
            exact .computed typed init noMethod computed ⟨_, found, keyRead⟩ ⟨_, present, valueRead⟩
        | false =>
            simp only [computed, Bool.false_eq_true, if_false, run_bind_eq_ok, run_lift_eq_ok,
              Node.field_eq_ok, run_pure_eq_ok, propertyName_eq_ok] at rest
            obtain ⟨_, name, _, present, _, valueRead, rfl⟩ := rest
            exact .named typed init noMethod computed found name ⟨_, present, valueRead⟩
  · intro rule
    cases rule with
    | @named key _ _ typed init plain computed found name value =>
        obtain ⟨inner, present, valueRead⟩ := value
        refine ⟨⟨"Property"⟩, typed, ?_⟩
        simp only [ne_eq, not_true_eq_false, if_false, run_bind_eq_ok, run_lift_eq_ok,
          Node.string_eq_ok]
        refine ⟨"init", init, ?_⟩
        simp only [plain, computed, not_true_eq_false, decide_false, Bool.or_self,
          Bool.false_eq_true, if_false, run_bind_eq_ok, run_lift_eq_ok, Node.field_eq_ok,
          run_pure_eq_ok, propertyName_eq_ok]
        exact ⟨⟨key, Json.height_lt_of_child? found⟩, found, _, name,
          ⟨inner, Json.height_lt_of_child? present⟩, present, _, valueRead, rfl⟩
    | computed typed init plain computed key value =>
        obtain ⟨key, found, keyRead⟩ := key
        obtain ⟨inner, present, valueRead⟩ := value
        refine ⟨⟨"Property"⟩, typed, ?_⟩
        simp only [ne_eq, not_true_eq_false, if_false, run_bind_eq_ok, run_lift_eq_ok,
          Node.string_eq_ok]
        refine ⟨"init", init, ?_⟩
        simp only [plain, computed, not_true_eq_false, decide_false, Bool.or_self,
          Bool.false_eq_true, if_false, if_true, run_bind_eq_ok, run_lift_eq_ok, Node.field_eq_ok,
          run_pure_eq_ok]
        exact ⟨⟨key, Json.height_lt_of_child? found⟩, found, _, keyRead,
          ⟨inner, Json.height_lt_of_child? present⟩, present, _, valueRead, rfl⟩

theorem loopInit_eq_ok {init : LoopInit} : loopInit json = .ok init ↔ LoopInitRule json init := by
  rw [loopInit]
  simp only [bind_eq_ok, Node.of_eq_ok]
  constructor
  · rintro ⟨⟨kind⟩, typed, rest⟩
    split at rest
    next same =>
      simp only [bind_eq_ok, pure_eq_ok] at rest
      obtain ⟨⟨word, decls⟩, group, rfl⟩ := rest
      exact .decl (same ▸ typed) (declarations_eq_ok.mp group)
    next other =>
      simp only [bind_eq_ok, pure_eq_ok] at rest
      obtain ⟨inner, read, rfl⟩ := rest
      exact .expr typed other read
  · intro rule
    cases rule with
    | decl typed group =>
        refine ⟨⟨"VariableDeclaration"⟩, typed, ?_⟩
        simp only [if_true, bind_eq_ok, pure_eq_ok]
        exact ⟨(_, _), declarations_eq_ok.mpr group, rfl⟩
    | @expr kind inner typed other read =>
        refine ⟨⟨kind⟩, typed, ?_⟩
        simp only [other, if_false, bind_eq_ok, pure_eq_ok]
        exact ⟨inner, read, rfl⟩

end

end Freshen.Estree

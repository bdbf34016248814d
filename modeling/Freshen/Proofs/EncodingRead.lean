import Freshen.Proofs.Encoding

/-!
Reading inverts the encoding of programs. A node is read by the rule of its type when its parts are
recovered, which is one lemma for each kind of node; the induction on the tree puts them together.
-/

namespace Freshen

namespace Estree

section

variable {α : Type} {json value : Json} {kind name : String} {span : Span}
  {fields : List (String × Json)}

theorem number?_ofDouble (x : Double) : (Json.ofDouble x).number? = some x := by
  rw [Json.ofDouble]
  split
  next whole => exact congrArg some whole.1
  next => rfl

theorem child?_of_get? (found : json.get? name = some value) (solid : value.isNull = false) :
    json.child? name = some value := by
  simp [Json.child?, found, solid, Option.filter]

theorem child?_of_null (found : json.get? name = some .null) : json.child? name = none := by
  simp [Json.child?, found, Json.isNull, Option.filter]

theorem span_spannedNode (start : Json.lookup "start" fields = none)
    (stop : Json.lookup "end" fields = none) : (spannedNode kind span fields).span = span := by
  have offset (n : UInt32) : ((n.toNat : Int).toNat?).getD 0 = n.toNat := rfl
  simp [spannedNode, bareNode, Json.span, Json.get?, Json.lookup, start, stop, Json.nat?, offset]

theorem isNull_encodeExpr (expr : Expr) : (encodeExpr expr).isNull = false := by
  cases expr <;> rfl

theorem isNull_encodeStmt (stmt : Stmt) : (encodeStmt stmt).isNull = false := by
  cases stmt <;> rfl

theorem isNull_ofDouble (x : Double) : (Json.ofDouble x).isNull = false := by
  rw [Json.ofDouble]
  split <;> rfl

theorem reads_of_get? {read : Json → Load α} {result : α} (found : json.get? name = some value)
    (solid : value.isNull = false) (done : read value = .ok result) :
    Reads json name read result :=
  ⟨value, child?_of_get? found solid, done⟩

theorem readsEach_of_get? {read : Json → Load α} {items : List Json} {results : List α}
    (found : json.get? name = some (.array items))
    (each : List.Forall₂ (fun item result => read item = .ok result) items results) :
    ReadsEach json name read results :=
  ⟨items, child?_of_get? found rfl, each⟩

theorem readsAny_none {read : Json → Load α} (found : json.get? name = some .null) :
    ReadsAny json name read none := by
  rw [ReadsAny, child?_of_null found]
  exact .none

theorem readsAny_some {read : Json → Load α} {result : α} (found : json.get? name = some value)
    (solid : value.isNull = false) (done : read value = .ok result) :
    ReadsAny json name read (some result) := by
  rw [ReadsAny, child?_of_get? found solid]
  exact .some done

theorem expr_of_rule (make : Span → Expr) (spanned : json.span = span)
    (rule : ExprRule json (make json.span)) : expr json = .ok (make span) := by
  subst spanned
  exact expr_eq_ok.mpr rule

theorem stmt_of_rule (make : Span → Stmt) (spanned : json.span = span)
    (rule : StmtRule json (make json.span)) : stmt json = .ok (make span) := by
  subst spanned
  exact stmt_eq_ok.mpr rule

theorem hasOperator_of_get? {ofToken? : String → Option α} {token : String} {op : α}
    (found : json.get? "operator" = some (.string token)) (meant : ofToken? token = some op) :
    HasOperator json ofToken? op :=
  ⟨token, child?_of_get? found rfl, meant⟩

theorem binding_encodeIdentifier (name : String) : binding (encodeIdentifier name) = .ok name :=
  binding_eq_ok.mpr ⟨rfl, child?_of_get? rfl rfl⟩

theorem params_read (params : List Param) :
    List.Forall₂ (fun item result => param item = .ok result) (params.map encodeParam) params := by
  rw [List.forall₂_map_left_iff, List.forall₂_same]
  intro param _
  exact param_eq_ok.mpr ⟨rfl, child?_of_get? rfl rfl, span_spannedNode rfl rfl⟩

theorem id_read {id : Option String} (found : json.get? "id" = some (encodeId id)) :
    ReadsAny json "id" binding id := by
  cases id with
  | none => exact readsAny_none found
  | some name => exact readsAny_some found rfl (binding_encodeIdentifier name)

theorem function_read {name : Option String} {params : List Param} {body : List Stmt}
    {statements : List Json} (named : json.get? "id" = some (encodeId name))
    (taken : json.get? "params" = some (.array (params.map encodeParam)))
    (found : json.get? "body" = some (bareNode "BlockStatement" [("body", .array statements)]))
    (each : List.Forall₂ (fun item result => stmt item = .ok result) statements body) :
    FunctionRule json name params body where
  id := id_read named
  parameters := readsEach_of_get? taken (params_read params)
  statements := ⟨_, _, child?_of_get? found rfl, rfl, readsEach_of_get? rfl each⟩

end

theorem kind?_encodeExpr (expr : Expr) :
    ∃ kind, (encodeExpr expr).kind? = some kind ∧
      (kind ∈ exprKinds ∨ expr.isUnsupportedKind kind) := by
  cases expr with
  | binary op left right span =>
      refine ⟨operationKind op, rfl, .inl ?_⟩
      rw [operationKind]
      split <;> decide
  | unsupported kind span => exact ⟨kind, rfl, .inr (by simp [Expr.isUnsupportedKind])⟩
  | _ => exact ⟨_, rfl, .inl (by decide)⟩

theorem kind?_encodeExpr_ne {expr : Expr} {other : String} (outside : other ∉ exprKinds)
    (supported : expr.isUnsupportedKind other = false) :
    ∃ kind, (encodeExpr expr).kind? = some kind ∧ kind ≠ other := by
  obtain ⟨kind, typed, known⟩ := kind?_encodeExpr expr
  refine ⟨kind, typed, ?_⟩
  rintro rfl
  rcases known with known | known
  · exact outside known
  · simp [known] at supported

theorem kind?_of_isTarget {expr : Expr} (target : expr.isTarget) :
    ∃ kind, (encodeExpr expr).kind? = some kind ∧ kind ∈ ["Identifier", "MemberExpression"] := by
  cases expr <;> first
    | exact ⟨_, rfl, by decide⟩
    | cases target

theorem propertyName_read {name : PropertyName} (encodable : name.isEncodable) :
    PropertyNameRule (encodePropertyName name) name := by
  cases name with
  | ident name => exact .ident rfl (child?_of_get? rfl rfl)
  | string value =>
      exact .string rfl (.string rfl rfl (child?_of_get? rfl rfl))
  | number value =>
      exact .number rfl (.number rfl rfl (child?_of_get? rfl (isNull_ofDouble value))
        (number?_ofDouble value) encodable)

end Estree

open Estree

/-- Reading gives the expression back from its encoding. -/
def Expr.Recovered (expr : Expr) : Prop := Estree.expr (encodeExpr expr) = .ok expr

@[inherit_doc Expr.Recovered]
def Stmt.Recovered (stmt : Stmt) : Prop := Estree.stmt (encodeStmt stmt) = .ok stmt

def StmtsRecovered (stmts : List Stmt) : Prop :=
  List.Forall₂ (fun item result => Estree.stmt item = .ok result) (encodeStmts stmts) stmts

def ExprsRecovered (exprs : List Expr) : Prop :=
  List.Forall₂ (fun item result => Estree.expr item = .ok result) (encodeExprs exprs) exprs

structure GroupRecovered (decls : List Declarator) : Prop where
  each : List.Forall₂ (fun item result => declarator item = .ok result) (encodeDecls decls) decls
  inhabited : decls ≠ []

def OptionalRecovered (optional : Option Expr) : Prop :=
  ∀ ⦃json : Json⦄ ⦃name : String⦄, json.get? name = some (encodeOptional optional) →
    ReadsAny json name Estree.expr optional

section

variable {json : Json} {name : String}

theorem Expr.Recovered.reads {expr : Expr} (recovered : expr.Recovered)
    (found : json.get? name = some (encodeExpr expr)) : Reads json name Estree.expr expr :=
  reads_of_get? found (isNull_encodeExpr expr) recovered

theorem Stmt.Recovered.reads {stmt : Stmt} (recovered : stmt.Recovered)
    (found : json.get? name = some (encodeStmt stmt)) : Reads json name Estree.stmt stmt :=
  reads_of_get? found (isNull_encodeStmt stmt) recovered

theorem GroupRecovered.rule {decls : List Declarator} (recovered : GroupRecovered decls)
    {kind : DeclKind} (word : json.get? "kind" = some (.string kind.word))
    (found : json.get? "declarations" = some (.array (encodeDecls decls))) :
    GroupRule json kind decls where
  word := ⟨kind.word, child?_of_get? word rfl, kind.ofWord?_word⟩
  each := readsEach_of_get? found recovered.each
  inhabited := recovered.inhabited

end

namespace Expr.Recovered

variable {first second third : Expr} {span : Span}

theorem null : (Expr.null span).Recovered :=
  expr_of_rule .null (span_spannedNode rfl rfl) (.literal rfl (.null rfl rfl rfl))

theorem bool (value : Bool) : (Expr.bool value span).Recovered :=
  expr_of_rule (.bool value) (span_spannedNode rfl rfl)
    (.literal rfl (.bool rfl rfl (child?_of_get? rfl rfl)))

theorem number {value : Double} (encodable : (Expr.number value span).isEncodable) :
    (Expr.number value span).Recovered :=
  expr_of_rule (.number value) (span_spannedNode rfl rfl)
    (.literal rfl (.number rfl rfl (child?_of_get? rfl (isNull_ofDouble value))
      (number?_ofDouble value) encodable))

theorem string (value : String) : (Expr.string value span).Recovered :=
  expr_of_rule (.string value) (span_spannedNode rfl rfl)
    (.literal rfl (.string rfl rfl (child?_of_get? rfl rfl)))

theorem regex (pattern flags : String) : (Expr.regex pattern flags span).Recovered :=
  expr_of_rule (.regex pattern flags) (span_spannedNode rfl rfl)
    (.literal rfl (.regex (child?_of_get? rfl rfl) rfl rfl))

theorem ident (name : String) : (Expr.ident name span).Recovered :=
  expr_of_rule (.ident name) (span_spannedNode rfl rfl) (.ident rfl (child?_of_get? rfl rfl))

theorem array {elements : List (Option Expr)}
    (each : List.Forall₂ (fun item result => element item = .ok result)
      (encodeElements elements) elements) : (Expr.array elements span).Recovered :=
  expr_of_rule (.array elements) (span_spannedNode rfl rfl)
    (.array rfl (readsEach_of_get? rfl each))

theorem object {properties : List Property}
    (each : List.Forall₂ PropertyRule (encodeProperties properties) properties) :
    (Expr.object properties span).Recovered :=
  expr_of_rule (.object properties) (span_spannedNode rfl rfl)
    (.object rfl (child?_of_get? rfl rfl) each)

theorem function (name : Option String) (params : List Param) {body : List Stmt}
    (each : StmtsRecovered body) : (Expr.function name params body span span).Recovered :=
  expr_of_rule (fun span => .function name params body span span) (span_spannedNode rfl rfl)
    (.function rfl rfl rfl (function_read rfl rfl rfl each))

theorem arrow (params : List Param) {result : Expr} (recovered : result.Recovered)
    (supported : result.isUnsupportedKind "BlockStatement" = false) :
    (Expr.arrow params result span span).Recovered := by
  obtain ⟨kind, typed, other⟩ := kind?_encodeExpr_ne (by decide) supported
  exact expr_of_rule (fun span => .arrow params result span span) (span_spannedNode rfl rfl)
    (.arrow rfl rfl rfl (child?_of_get? rfl (isNull_encodeExpr result)) typed other recovered
      (readsEach_of_get? rfl (params_read params)))

theorem arrowBlock (params : List Param) {body : List Stmt} (each : StmtsRecovered body) :
    (Expr.arrowBlock params body span span).Recovered :=
  expr_of_rule (fun span => .arrowBlock params body span span) (span_spannedNode rfl rfl)
    (.arrowBlock rfl rfl rfl (child?_of_get? rfl rfl) rfl (readsEach_of_get? rfl each)
      (readsEach_of_get? rfl (params_read params)))

theorem unary (op : UnaryOp) (arg : first.Recovered) : (Expr.unary op first span).Recovered :=
  expr_of_rule (.unary op first) (span_spannedNode rfl rfl)
    (.unary rfl (hasOperator_of_get? rfl op.ofToken?_token) (arg.reads rfl))

theorem binary (op : BinaryOp) (left : first.Recovered) (right : second.Recovered) :
    (Expr.binary op first second span).Recovered := by
  refine expr_of_rule (.binary op first second) (span_spannedNode rfl rfl)
    (.binary rfl ?_ (hasOperator_of_get? rfl op.ofToken?_token) (left.reads rfl) (right.reads rfl))
  rw [operationKind]
  split <;> decide

theorem assign (op : AssignOp) (assignable : first.isTarget) (target : first.Recovered)
    (value : second.Recovered) : (Expr.assign op first second span).Recovered := by
  obtain ⟨kind, typed, known⟩ := kind?_of_isTarget assignable
  exact expr_of_rule (.assign op first second) (span_spannedNode rfl rfl)
    (.assign rfl (hasOperator_of_get? rfl op.ofToken?_token)
      (child?_of_get? rfl (isNull_encodeExpr first)) typed known target (value.reads rfl))

theorem update (op : UpdateOp) (before : Bool) (arg : first.Recovered) :
    (Expr.update op before first span).Recovered := by
  have flag : (encodeExpr (.update op before first span)).flag "prefix" = before := rfl
  exact expr_of_rule (.update op before first) (span_spannedNode rfl rfl)
    (flag ▸ .update rfl (hasOperator_of_get? rfl op.ofToken?_token) (arg.reads rfl))

theorem conditional (test : first.Recovered) (consequent : second.Recovered)
    (alternate : third.Recovered) : (Expr.conditional first second third span).Recovered :=
  expr_of_rule (.conditional first second third) (span_spannedNode rfl rfl)
    (.conditional rfl (test.reads rfl) (consequent.reads rfl) (alternate.reads rfl))

theorem sequence {exprs : List Expr} (each : ExprsRecovered exprs) :
    (Expr.sequence exprs span).Recovered :=
  expr_of_rule (.sequence exprs) (span_spannedNode rfl rfl)
    (.sequence rfl (readsEach_of_get? rfl each))

theorem member (name : String) (object : first.Recovered) :
    (Expr.member first name span).Recovered :=
  expr_of_rule (.member first name) (span_spannedNode rfl rfl)
    (.member rfl rfl (child?_of_get? rfl rfl) rfl (child?_of_get? rfl rfl) (object.reads rfl))

theorem index (object : first.Recovered) (property : second.Recovered) :
    (Expr.index first second span).Recovered :=
  expr_of_rule (.index first second) (span_spannedNode rfl rfl)
    (.index rfl rfl (property.reads rfl) (object.reads rfl))

theorem call {args : List Expr} (callee : first.Recovered) (each : ExprsRecovered args) :
    (Expr.call first args span).Recovered :=
  expr_of_rule (.call first args) (span_spannedNode rfl rfl)
    (.call rfl rfl (callee.reads rfl) (readsEach_of_get? rfl each))

theorem new {args : List Expr} (callee : first.Recovered) (each : ExprsRecovered args) :
    (Expr.new first args span).Recovered :=
  expr_of_rule (.new first args) (span_spannedNode rfl rfl)
    (.new rfl (callee.reads rfl) (readsEach_of_get? rfl each))

theorem unsupported {kind : String} (outside : kind ∉ exprKinds) :
    (Expr.unsupported kind span).Recovered :=
  expr_of_rule (.unsupported kind) (span_spannedNode rfl rfl)
    (.other rfl (functionFlavor_eq_none.mpr fun _ => ⟨rfl, rfl⟩) outside)

end Expr.Recovered

theorem Expr.Recovered.named {value : Expr} (recovered : value.Recovered) {name : PropertyName}
    (encodable : name.isEncodable) (shorthand : Bool) :
    PropertyRule (encodeProperty (.named name value shorthand)) (.named name value shorthand) := by
  have flag : (encodeProperty (.named name value shorthand)).flag "shorthand" = shorthand := rfl
  have solid : (encodePropertyName name).isNull = false := by cases name <;> rfl
  exact flag ▸ .named rfl (child?_of_get? rfl rfl) rfl rfl (child?_of_get? rfl solid)
    (propertyName_read encodable) (recovered.reads rfl)

theorem Expr.Recovered.computed {key value : Expr} (name : key.Recovered)
    (recovered : value.Recovered) (shorthand : Bool) :
    PropertyRule (encodeProperty (.computed key value shorthand))
      (.computed key value shorthand) := by
  have flag : (encodeProperty (.computed key value shorthand)).flag "shorthand" = shorthand := rfl
  exact flag ▸ .computed rfl (child?_of_get? rfl rfl) rfl rfl (name.reads rfl)
    (recovered.reads rfl)

namespace Stmt.Recovered

variable {part : Expr} {body : Stmt} {optional : Option Expr} {stmts : List Stmt} {span : Span}

theorem var (kind : DeclKind) {decls : List Declarator} (group : GroupRecovered decls) :
    (Stmt.var kind decls span).Recovered :=
  stmt_of_rule (.var kind decls) (span_spannedNode rfl rfl) (.var rfl (group.rule rfl rfl))

theorem function (name : Option String) (params : List Param) (each : StmtsRecovered stmts) :
    (Stmt.function name params stmts span span).Recovered :=
  stmt_of_rule (fun span => .function name params stmts span span) (span_spannedNode rfl rfl)
    (.function rfl rfl rfl (function_read rfl rfl rfl each))

theorem block (each : StmtsRecovered stmts) : (Stmt.block stmts span).Recovered :=
  stmt_of_rule (.block stmts) (span_spannedNode rfl rfl) (.block rfl (readsEach_of_get? rfl each))

theorem cond {alternate : Option Stmt} (test : part.Recovered) (consequent : body.Recovered)
    (other : ∀ stmt ∈ alternate, stmt.Recovered) :
    (Stmt.cond part body alternate span).Recovered := by
  have alternate_read : ReadsAny (encodeStmt (.cond part body alternate span)) "alternate"
      Estree.stmt alternate := by
    cases alternate with
    | none => exact readsAny_none rfl
    | some stmt => exact readsAny_some rfl (isNull_encodeStmt stmt) (other stmt rfl)
  exact stmt_of_rule (.cond part body alternate) (span_spannedNode rfl rfl)
    (.cond rfl (test.reads rfl) (consequent.reads rfl) alternate_read)

theorem loop {init : LoopInit} {test update : Option Expr} {read : Option LoopInit}
    (init_read : ReadsAny (encodeStmt (.loop init test update body span)) "init" loopInit read)
    (same : read.getD .absent = init) (tested : OptionalRecovered test)
    (updated : OptionalRecovered update) (repeated : body.Recovered) :
    (Stmt.loop init test update body span).Recovered := by
  have rule := StmtRule.loop rfl init_read (tested rfl) (updated rfl) (repeated.reads rfl)
  rw [same] at rule
  exact stmt_of_rule (.loop init test update body) (span_spannedNode rfl rfl) rule

theorem whileLoop (test : part.Recovered) (repeated : body.Recovered) :
    (Stmt.whileLoop part body span).Recovered :=
  stmt_of_rule (.whileLoop part body) (span_spannedNode rfl rfl)
    (.whileLoop rfl (test.reads rfl) (repeated.reads rfl))

theorem doWhile (repeated : body.Recovered) (test : part.Recovered) :
    (Stmt.doWhile body part span).Recovered :=
  stmt_of_rule (.doWhile body part) (span_spannedNode rfl rfl)
    (.doWhile rfl (repeated.reads rfl) (test.reads rfl))

theorem exitLoop : (Stmt.exitLoop span).Recovered :=
  stmt_of_rule .exitLoop (span_spannedNode rfl rfl) (.exitLoop rfl rfl)

theorem nextLoop : (Stmt.nextLoop span).Recovered :=
  stmt_of_rule .nextLoop (span_spannedNode rfl rfl) (.nextLoop rfl rfl)

theorem ret (arg : OptionalRecovered optional) : (Stmt.ret optional span).Recovered :=
  stmt_of_rule (.ret optional) (span_spannedNode rfl rfl) (.ret rfl (arg rfl))

theorem throw (arg : part.Recovered) : (Stmt.throw part span).Recovered :=
  stmt_of_rule (.throw part) (span_spannedNode rfl rfl) (.throw rfl (arg.reads rfl))

theorem expr (value : part.Recovered) : (Stmt.expr part span).Recovered :=
  stmt_of_rule (.expr part) (span_spannedNode rfl rfl) (.expr rfl (value.reads rfl))

theorem empty : (Stmt.empty span).Recovered :=
  stmt_of_rule .empty (span_spannedNode rfl rfl) (.empty rfl)

theorem unsupported {kind : String} (outside : kind ∉ stmtKinds) :
    (Stmt.unsupported kind span).Recovered :=
  stmt_of_rule (.unsupported kind) (span_spannedNode rfl rfl) (.other rfl outside)

end Stmt.Recovered

mutual

theorem Expr.recovered (expr : Expr) (encodable : expr.isEncodable) : expr.Recovered := by
  match expr with
  | .null _ => exact .null
  | .bool value _ => exact .bool value
  | .number _ _ => exact .number encodable
  | .string value _ => exact .string value
  | .regex pattern flags _ => exact .regex pattern flags
  | .ident name _ => exact .ident name
  | .array elements _ => exact .array (elements_recovered elements encodable)
  | .object properties _ => exact .object (properties_recovered properties encodable)
  | .function name params body _ _ =>
      rw [Expr.isEncodable, Bool.and_eq_true, beq_iff_eq] at encodable
      obtain ⟨rfl, inside⟩ := encodable
      exact .function name params (stmts_recovered body inside)
  | .arrow params result _ _ =>
      simp only [Expr.isEncodable, Bool.and_eq_true, beq_iff_eq, Bool.not_eq_true'] at encodable
      obtain ⟨⟨rfl, inside⟩, supported⟩ := encodable
      exact .arrow params (result.recovered inside) supported
  | .arrowBlock params body _ _ =>
      rw [Expr.isEncodable, Bool.and_eq_true, beq_iff_eq] at encodable
      obtain ⟨rfl, inside⟩ := encodable
      exact .arrowBlock params (stmts_recovered body inside)
  | .unary op arg _ => exact .unary op (arg.recovered encodable)
  | .binary op left right _ =>
      rw [Expr.isEncodable, Bool.and_eq_true] at encodable
      exact .binary op (left.recovered encodable.1) (right.recovered encodable.2)
  | .assign op target value _ =>
      simp only [Expr.isEncodable, Bool.and_eq_true] at encodable
      obtain ⟨⟨assignable, before⟩, after⟩ := encodable
      exact .assign op assignable (target.recovered before) (value.recovered after)
  | .update op before arg _ => exact .update op before (arg.recovered encodable)
  | .conditional test consequent alternate _ =>
      simp only [Expr.isEncodable, Bool.and_eq_true] at encodable
      exact .conditional (test.recovered encodable.1.1) (consequent.recovered encodable.1.2)
        (alternate.recovered encodable.2)
  | .sequence exprs _ => exact .sequence (exprs_recovered exprs encodable)
  | .member object name _ => exact .member name (object.recovered encodable)
  | .index object property _ =>
      rw [Expr.isEncodable, Bool.and_eq_true] at encodable
      exact .index (object.recovered encodable.1) (property.recovered encodable.2)
  | .call callee args _ =>
      rw [Expr.isEncodable, Bool.and_eq_true] at encodable
      exact .call (callee.recovered encodable.1) (exprs_recovered args encodable.2)
  | .new callee args _ =>
      rw [Expr.isEncodable, Bool.and_eq_true] at encodable
      exact .new (callee.recovered encodable.1) (exprs_recovered args encodable.2)
  | .unsupported kind _ => exact .unsupported (by simpa [Expr.isEncodable] using encodable)

theorem exprs_recovered (exprs : List Expr) (encodable : exprsAreEncodable exprs) :
    ExprsRecovered exprs := by
  match exprs with
  | [] => exact .nil
  | expr :: rest =>
      rw [exprsAreEncodable, Bool.and_eq_true] at encodable
      exact .cons (expr.recovered encodable.1) (exprs_recovered rest encodable.2)

theorem optional_recovered (optional : Option Expr) (encodable : optionalIsEncodable optional) :
    OptionalRecovered optional := by
  match optional with
  | none => exact fun _ _ found => readsAny_none found
  | some expr =>
      exact fun _ _ found =>
        readsAny_some found (isNull_encodeExpr expr) (expr.recovered encodable)

theorem elements_recovered (elements : List (Option Expr))
    (encodable : elementsAreEncodable elements) :
    List.Forall₂ (fun item result => element item = .ok result) (encodeElements elements)
      elements := by
  match elements with
  | [] => exact .nil
  | none :: rest =>
      rw [elementsAreEncodable, Bool.and_eq_true] at encodable
      exact .cons rfl (elements_recovered rest encodable.2)
  | some expr :: rest =>
      rw [elementsAreEncodable, Bool.and_eq_true] at encodable
      have recovered : Estree.expr (encodeExpr expr) = .ok expr := expr.recovered encodable.1
      refine .cons ?_ (elements_recovered rest encodable.2)
      rw [encodeOptional, element, isNull_encodeExpr, recovered]
      rfl

theorem properties_recovered (properties : List Property)
    (encodable : propertiesAreEncodable properties) :
    List.Forall₂ PropertyRule (encodeProperties properties) properties := by
  match properties with
  | [] => exact .nil
  | property :: rest =>
      rw [propertiesAreEncodable, Bool.and_eq_true] at encodable
      exact .cons (property.recovered encodable.1) (properties_recovered rest encodable.2)

theorem Property.recovered (property : Property) (encodable : property.isEncodable) :
    PropertyRule (encodeProperty property) property := by
  match property with
  | .named name value shorthand =>
      rw [Property.isEncodable, Bool.and_eq_true] at encodable
      exact (value.recovered encodable.2).named encodable.1 shorthand
  | .computed key value shorthand =>
      rw [Property.isEncodable, Bool.and_eq_true] at encodable
      exact (key.recovered encodable.1).computed (value.recovered encodable.2) shorthand

theorem Stmt.recovered (stmt : Stmt) (encodable : stmt.isEncodable) : stmt.Recovered := by
  match stmt with
  | .var kind decls _ => exact .var kind (group_recovered decls encodable)
  | .function name params body _ _ =>
      rw [Stmt.isEncodable, Bool.and_eq_true, beq_iff_eq] at encodable
      obtain ⟨rfl, inside⟩ := encodable
      exact .function name params (stmts_recovered body inside)
  | .block body _ => exact .block (stmts_recovered body encodable)
  | .cond test consequent alternate _ =>
      simp only [Stmt.isEncodable, Bool.and_eq_true] at encodable
      exact .cond (test.recovered encodable.1.1) (consequent.recovered encodable.1.2)
        (alternate_recovered alternate encodable.2)
  | .loop init test update body span =>
      simp only [Stmt.isEncodable, Bool.and_eq_true] at encodable
      obtain ⟨⟨⟨initial, tested⟩, updated⟩, repeated⟩ := encodable
      have stored : (encodeStmt (.loop init test update body span)).get? "init" =
        some (encodeLoopInit init) := rfl
      obtain ⟨read, init_read, same⟩ := init.recovered initial stored
      exact .loop init_read same (optional_recovered test tested)
        (optional_recovered update updated) (body.recovered repeated)
  | .whileLoop test body _ =>
      rw [Stmt.isEncodable, Bool.and_eq_true] at encodable
      exact .whileLoop (test.recovered encodable.1) (body.recovered encodable.2)
  | .doWhile body test _ =>
      rw [Stmt.isEncodable, Bool.and_eq_true] at encodable
      exact .doWhile (body.recovered encodable.2) (test.recovered encodable.1)
  | .exitLoop _ => exact .exitLoop
  | .nextLoop _ => exact .nextLoop
  | .ret arg _ => exact .ret (optional_recovered arg encodable)
  | .throw arg _ => exact .throw (arg.recovered encodable)
  | .expr expr _ => exact .expr (expr.recovered encodable)
  | .empty _ => exact .empty
  | .unsupported kind _ => exact .unsupported (by simpa [Stmt.isEncodable] using encodable)

theorem alternate_recovered (alternate : Option Stmt) (encodable : alternateIsEncodable alternate) :
    ∀ stmt ∈ alternate, stmt.Recovered := by
  match alternate with
  | none => exact fun _ absent => nomatch absent
  | some stmt =>
      rintro _ ⟨⟩
      exact stmt.recovered encodable

theorem stmts_recovered (stmts : List Stmt) (encodable : stmtsAreEncodable stmts) :
    StmtsRecovered stmts := by
  match stmts with
  | [] => exact .nil
  | stmt :: rest =>
      rw [stmtsAreEncodable, Bool.and_eq_true] at encodable
      exact .cons (stmt.recovered encodable.1) (stmts_recovered rest encodable.2)

theorem decls_recovered (decls : List Declarator) (encodable : declsAreEncodable decls) :
    List.Forall₂ (fun item result => declarator item = .ok result) (encodeDecls decls) decls := by
  match decls with
  | [] => exact .nil
  | .mk name init _ :: rest =>
      rw [declsAreEncodable, Bool.and_eq_true] at encodable
      refine .cons (declarator_eq_ok.mpr ⟨?_, span_spannedNode rfl rfl⟩)
        (decls_recovered rest encodable.2)
      exact ⟨⟨_, rfl⟩, reads_of_get? rfl rfl (binding_encodeIdentifier name),
        optional_recovered init encodable.1 rfl⟩

theorem group_recovered (decls : List Declarator)
    (encodable : !decls.isEmpty && declsAreEncodable decls) : GroupRecovered decls := by
  rw [Bool.and_eq_true] at encodable
  exact ⟨decls_recovered decls encodable.2, by simpa using encodable.1⟩

theorem LoopInit.recovered (init : LoopInit) (encodable : init.isEncodable)
    {json : Json} {name : String} (found : json.get? name = some (encodeLoopInit init)) :
    ∃ read, ReadsAny json name loopInit read ∧ read.getD .absent = init := by
  match init with
  | .absent => exact ⟨none, readsAny_none found, rfl⟩
  | .decl kind decls =>
      have rule : loopInit (encodeLoopInit (.decl kind decls)) = .ok (.decl kind decls) :=
        loopInit_eq_ok.mpr (.decl rfl ((group_recovered decls encodable).rule rfl rfl))
      exact ⟨_, readsAny_some found rfl rule, rfl⟩
  | .expr expr =>
      simp only [LoopInit.isEncodable, Bool.and_eq_true, Bool.not_eq_true'] at encodable
      obtain ⟨kind, typed, other⟩ := kind?_encodeExpr_ne (by decide) encodable.2
      have rule := loopInit_eq_ok.mpr (.expr typed other (expr.recovered encodable.1))
      exact ⟨_, readsAny_some found (isNull_encodeExpr expr) rule, rfl⟩

end

/-- A program is read back from its encoding. -/
theorem program_encode (program : Program) (encodable : program.isEncodable) :
    Estree.program (encode program) = .ok program :=
  program_eq_ok.mpr ⟨rfl, readsEach_of_get? rfl (stmts_recovered program.body encodable),
    span_spannedNode rfl rfl⟩

theorem program_encode_keys :
    let program : Program :=
      ⟨[.loop (.decl .lexical [.mk "i" (some (.number ⟨0x8000000000000000⟩ ⟨12, 14⟩)) ⟨8, 14⟩])
        none (some (.update .increment false (.ident "i" ⟨17, 18⟩) ⟨17, 20⟩))
        (.expr (.assign .coalesce (.member (.ident "o" ⟨22, 23⟩) "p" ⟨22, 25⟩)
          (.object [
            .named (.ident "x") (.ident "x" ⟨33, 34⟩) true,
            .named (.string "y z") (.array [some (.null ⟨40, 44⟩), none] ⟨39, 46⟩) false,
            .named (.number ⟨0x4004000000000000⟩) (.regex "a+" "g" ⟨53, 58⟩) false,
            .computed (.binary .or (.ident "k" ⟨61, 62⟩) (.ident "x" ⟨66, 67⟩) ⟨61, 67⟩)
              (.arrow [⟨"a", ⟨70, 71⟩⟩] (.unsupported "ThisExpression" ⟨75, 79⟩) ⟨70, 79⟩ ⟨70, 79⟩)
              false] ⟨31, 81⟩) ⟨22, 81⟩) ⟨22, 82⟩) ⟨0, 82⟩,
        .unsupported "ClassDeclaration" ⟨83, 93⟩], ⟨0, 93⟩⟩
    program.isEncodable ∧ Estree.program (encode program) = .ok program := by
  intro program
  have encodable : program.isEncodable := by decide +kernel
  exact ⟨encodable, program_encode program encodable⟩

end Freshen

import ServiceStubs.Declaration.Class
import ServiceStubs.Session.ShapeType
import ServiceStubs.Text.SnakeCase

/-!
# Methods of a schema

The methods that a schema describes.  What an operation takes becomes arguments
that must be given by name; every kind of method leaves out those that it fills
itself, and adds its own.

Everything that may be missing from the schema is looked up before any type is
made, so a method that fails leaves the session as it was.

## Main definitions

* `Service.arguments` — the arguments of an operation.
* `Service.clientMethod`, `Service.paginateMethod`, `Service.waitMethod` — of the
  low-level service.
* `Service.actionMethod`, `Service.batchMethod`, `Service.relationMethod`,
  `Service.filterMethod`, `Service.resourceWaitMethod` — of resources.
* `Service.resourceAttributes` — the attributes of a resource.
-/

namespace ServiceStubs.Service

open Text (snakeCase)

/-! ## Arguments -/

/-- The argument for one member of the input of an operation. -/
def argument (svc : Service) (operation : String) (shape : Schema.Shape)
    (member : String × Schema.ShapeRef) : SessionM Argument := do
  let type ← match specialType? svc.schema.serviceName operation member.1 with
    | some special => Session.specialType special
    | none => svc.memberType .input member.2
  return if shape.isRequired member.1 then .needed member.1 type else .optional member.1 type

/-- The arguments for the members of a shape, those left out in `exclude`
apart, required ones first. -/
def arguments (svc : Service) (operation : String) (input : Schema.ShapeRef)
    (exclude : List String) : SessionM (List Argument) := do
  match svc.model.shapes.get? input.shape with
  | none => return []
  | some shape =>
    let members := shape.members.entries.filter (!exclude.contains ·.1)
    return requiredFirst (← members.mapM (svc.argument operation shape))

/-- The arguments of an operation, which must be given by name. -/
def keywordArguments (svc : Service) (name : String) (o : Schema.Operation)
    (exclude : List String) : SessionM (List Argument) := do
  match o.input with
  | none => return []
  | some input => return keywordOnly (← svc.arguments name input exclude)

/-! ## Methods of the low-level service -/

/-- The method of the client for an operation. -/
def clientMethod (svc : Service) (name : String) : Build FunctionStub := do
  let o ← Build.ofExcept (svc.operation name)
  let arguments ← svc.keywordArguments name o []
  let returnType ← svc.returnType o
  return { FunctionStub.method (snakeCase name) arguments returnType with
    docstring := (o.documentation.map Text.plain).getD "" }

/-- The methods of the client for all operations. -/
def clientMethods (svc : Service) : Build (List FunctionStub) :=
  svc.model.operations.keys.mapM svc.clientMethod

/-- The inputs that a paginator fills: those that say where to go on, and the
number of results. -/
def pagingInputs (r : Schema.PagingRule) : List String :=
  r.inputToken.names ++ r.limitKey.toList

/-- The method of a paginator. -/
def paginateMethod (svc : Service) (name : String) : Build FunctionStub := do
  let rule ← Build.ofExcept (svc.schema.paginator name)
  let o ← Build.ofExcept (svc.operation name)
  let arguments ← svc.keywordArguments name o (pagingInputs rule)
  let settings ← Session.fixedDict .paginatorConfig
  let returnType ← svc.returnType o
  return .method "paginate" (addKeyword arguments (.optional "PaginationConfig" settings))
    (.iteratorOf returnType)

/-- The method that waits on an operation, without the arguments that are
filled. -/
def waitOn (svc : Service) (name operation : String) (o : Schema.Operation)
    (exclude : List String) : SessionM FunctionStub := do
  let arguments ← svc.keywordArguments operation o exclude
  let settings ← Session.fixedDict .waiterConfig
  return .method name (addKeyword arguments (.optional "WaiterConfig" settings)) .none

/-- The method of a waiter. -/
def waitMethod (svc : Service) (name : String) : Build FunctionStub := do
  let rule ← Build.ofExcept (svc.schema.waiter name)
  let o ← Build.ofExcept (svc.operation rule.operation)
  svc.waitOn "wait" rule.operation o []

/-! ## Methods of resources -/

/-- The type of the resource that something yields, which must be declared. -/
def targetType (svc : Service) (t : Schema.ResourceTarget) : Except Error TypeExpr := do
  discard (svc.schema.resource t.type)
  return if t.isList then .listOf (.resource t.type) else .resource t.type

/-- The method of an action.  What the operation returns is preferred to the
resource that the action yields. -/
def actionOf (svc : Service) (name : String) (a : Schema.Action) : Build FunctionStub := do
  let yielded ← Build.ofExcept (a.resource.mapM svc.targetType)
  match a.request with
  | none => return .method (snakeCase name) [] (yielded.getD .none)
  | some request =>
    let o ← Build.ofExcept (svc.operation request.operation)
    let arguments ← svc.keywordArguments request.operation o request.identifierTargets
    let returnType ← match o.output, yielded with
      | none, some type => pure type
      | _, _ => svc.returnType o
    return .method (snakeCase name) arguments returnType

/-- The method of the action of a name. -/
def actionMethod (svc : Service) (owner : Schema.ResourceModel) (name : String) :
    Build FunctionStub := do
  let a ← Build.ofExcept (owner.action svc.schema.serviceName name)
  svc.actionOf name a

/-- The method of an action on many resources, which returns what its operation
returns once for every batch of them. -/
def batchMethod (svc : Service) (name : String) (a : Schema.Action) : Build FunctionStub := do
  match a.request with
  | none => throw (.batchWithoutRequest name svc.schema.serviceName)
  | some request =>
    let o ← Build.ofExcept (svc.operation request.operation)
    let arguments ← svc.keywordArguments request.operation o request.identifierTargets
    let returnType ← svc.returnType o
    return .method (snakeCase name) arguments (.listOf returnType)

/-- The method of a relation to one other resource, which takes the identifiers
that the relation leaves open. -/
def relationMethod (svc : Service) (name : String) (t : Schema.ResourceTarget) :
    Except Error FunctionStub := do
  let left := (t.identifiers.filter (·.source = .input)).map fun p =>
    Argument.needed (snakeCase p.target) .str
  return .method name left (← svc.targetType t)

/-- The method that selects from a collection. -/
def filterMethod (svc : Service) (relation : Schema.Action) (self : TypeExpr) :
    Build FunctionStub := do
  match relation.request with
  | none => return .method "filter" [] self
  | some request =>
    let o ← Build.ofExcept (svc.operation request.operation)
    let arguments ← svc.keywordArguments request.operation o request.identifierTargets
    return .method "filter" arguments self

/-- The method of a waiter of a resource. -/
def resourceWaitMethod (svc : Service) (name : String) (w : Schema.ResourceWaiter) :
    Build FunctionStub := do
  let rule ← Build.ofExcept (svc.schema.waiter w.waiterName)
  let o ← Build.ofExcept (svc.operation rule.operation)
  svc.waitOn ("wait_until_" ++ snakeCase name) rule.operation o (w.params.map (·.target))

/-! ## Attributes of resources -/

/-- The attributes of a resource for its identifiers. -/
def identifierAttributes (r : Schema.ResourceModel) : List Attribute :=
  r.identifiers.map fun i => ⟨snakeCase i.name, .str⟩

/-- Adds the attribute for a member of the shape of a resource, unless there is
one of that name. -/
def addMemberAttribute (svc : Service) (as : List Attribute)
    (member : String × Schema.ShapeRef) : SessionM (List Attribute) := do
  if as.any (·.name = snakeCase member.1) then return as
  return as ++ [⟨snakeCase member.1, ← svc.memberType .output member.2⟩]

/-- The attributes of a resource: its identifiers, then the members of its
shape. -/
def resourceAttributes (svc : Service) (r : Schema.ResourceModel) :
    SessionM (List Attribute) :=
  match r.shape.bind svc.model.shapes.get? with
  | none => return identifierAttributes r
  | some shape => shape.members.entries.foldlM svc.addMemberAttribute (identifierAttributes r)

end ServiceStubs.Service

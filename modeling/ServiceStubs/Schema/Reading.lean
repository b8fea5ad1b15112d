import ServiceStubs.Json.Record
import ServiceStubs.Schema.Basic

/-!
# Reading schemas

The readers of the records of a schema.  Each lists the names of its fields and
says how every field is read; `Schema/Writing` has the writers.

## Main definitions

* `Model.read`, `Schema.read` — a service model, and a whole schema.
-/

namespace ServiceStubs

open Json.Reader

namespace Schema

/-- Lists and objects may be nested this deeply in a schema text.  What is
ignored may be nested as deeply as one likes. -/
def nestingLimit : Nat := 127

/-- The lists and objects around the values of a paging rule: the schema, its
paginators, and the rule. -/
def pagingRuleDepth : Nat := 3

/-! ## The service model -/

/-- Reads a reference to a shape. -/
def ShapeRef.read : Json.Reader ShapeRef := fun j => do
  match ← j.fields? ["shape", "documentation"] with
  | [shape, documentation] =>
    return {
      shape := ← given text shape
      documentation := ← optional text documentation }
  | _ => none

/-- Reads a shape. -/
def Shape.read : Json.Reader Shape := fun j => do
  match ← j.fields? ["type", "members", "required", "enum", "key", "value", "member",
      "documentation", "streaming"] with
  | [type, members, needed, choices, key, value, member, documentation, streaming] =>
    return {
      kind := ShapeKind.ofTag (← given text type)
      members := ← defaulted (map ShapeRef.read) ∅ members
      required := ← defaulted (list text) [] needed
      choices := ← defaulted (list text) [] choices
      key := ← optional ShapeRef.read key
      value := ← optional ShapeRef.read value
      member := ← optional ShapeRef.read member
      documentation := ← optional text documentation
      streaming := ← defaulted flag false streaming }
  | _ => none

/-- Reads an operation. -/
def Operation.read : Json.Reader Operation := fun j => do
  match ← j.fields? ["input", "output", "documentation"] with
  | [input, output, documentation] =>
    return {
      input := ← optional ShapeRef.read input
      output := ← optional ShapeRef.read output
      documentation := ← optional text documentation }
  | _ => none

/-- Reads a service model. -/
def Model.read : Json.Reader Model := fun j => do
  match ← j.fields? ["operations", "shapes"] with
  | [operations, shapes] =>
    return {
      operations := ← defaulted (map Operation.read) ∅ operations
      shapes := ← defaulted (map Shape.read) ∅ shapes }
  | _ => none

/-! ## Paginators and waiters -/

/-- Reads one input name or a list of them. -/
def InputToken.read : Json.Reader InputToken := fun j =>
  match text j with
  | some name => some (.single name)
  | none => (list text j).map .several

/-- Reads a value of any shape inside a paging rule. -/
def readOutputValue : Json.Reader JsonValue :=
  JsonValue.ofJson? (nestingLimit - pagingRuleDepth)

/-- Reads a paging rule. -/
def PagingRule.read : Json.Reader PagingRule := fun j => do
  match ← j.fields? ["input_token", "limit_key", "output_token", "result_key"] with
  | [inputToken, limitKey, outputToken, resultKey] =>
    return {
      inputToken := ← given InputToken.read inputToken
      limitKey := ← optional text limitKey
      outputToken := ← optional readOutputValue outputToken
      resultKey := ← optional readOutputValue resultKey }
  | _ => none

/-- Reads a waiting rule. -/
def WaitingRule.read : Json.Reader WaitingRule := fun j => do
  match ← j.fields? ["operation", "delay", "maxAttempts"] with
  | [operation, delay, maxAttempts] =>
    return {
      operation := ← given text operation
      delay := ← optional word32 delay
      maxAttempts := ← optional word32 maxAttempts }
  | _ => none

/-! ## Resources -/

/-- Reads the source of a parameter: its name, or an object whose only member
has the name and is null. -/
def ParamSource.read : Json.Reader ParamSource
  | .string s => s.map .ofName
  | .object [(k, .null)] => k.map .ofName
  | _ => none

/-- Reads a parameter. -/
def Param.read : Json.Reader Param := fun j => do
  match ← j.fields? ["target", "source", "name", "path"] with
  | [target, source, name, path] =>
    return {
      target := ← given text target
      source := ← given ParamSource.read source
      name := ← optional text name
      path := ← optional text path }
  | _ => none

/-- Reads a request. -/
def Request.read : Json.Reader Request := fun j => do
  match ← j.fields? ["operation", "params"] with
  | [operation, params] =>
    return {
      operation := ← given text operation
      params := ← defaulted (list Param.read) [] params }
  | _ => none

/-- Reads the resource that something yields. -/
def ResourceTarget.read : Json.Reader ResourceTarget := fun j => do
  match ← j.fields? ["type", "identifiers", "path"] with
  | [type, identifiers, path] =>
    return {
      type := ← given text type
      identifiers := ← defaulted (list Param.read) [] identifiers
      path := ← optional text path }
  | _ => none

/-- Reads an action. -/
def Action.read : Json.Reader Action := fun j => do
  match ← j.fields? ["request", "resource", "path"] with
  | [request, resource, path] =>
    return {
      request := ← optional Request.read request
      resource := ← optional ResourceTarget.read resource
      path := ← optional text path }
  | _ => none

/-- Reads a relation. -/
def Relation.read : Json.Reader Relation := fun j => do
  match ← j.fields? ["resource"] with
  | [resource] => return { resource := ← given ResourceTarget.read resource }
  | _ => none

/-- Reads a waiter of a resource. -/
def ResourceWaiter.read : Json.Reader ResourceWaiter := fun j => do
  match ← j.fields? ["waiterName", "params"] with
  | [waiterName, params] =>
    return {
      waiterName := ← given text waiterName
      params := ← defaulted (list Param.read) [] params }
  | _ => none

/-- Reads an identifier. -/
def Identifier.read : Json.Reader Identifier := fun j => do
  match ← j.fields? ["name"] with
  | [name] => return { name := ← given text name }
  | _ => none

/-- Reads a resource. -/
def ResourceModel.read : Json.Reader ResourceModel := fun j => do
  match ← j.fields? ["identifiers", "shape", "load", "actions", "batchActions", "has",
      "hasMany", "waiters"] with
  | [identifiers, shape, load, actions, batchActions, has, hasMany, waiters] =>
    return {
      identifiers := ← defaulted (list Identifier.read) [] identifiers
      shape := ← optional text shape
      load := ← optional Action.read load
      actions := ← defaulted (map Action.read) ∅ actions
      batchActions := ← defaulted (map Action.read) ∅ batchActions
      has := ← defaulted (map Relation.read) ∅ has
      hasMany := ← defaulted (map Action.read) ∅ hasMany
      waiters := ← defaulted (map ResourceWaiter.read) ∅ waiters }
  | _ => none

/-- Reads the resources of a service. -/
def Resources.read : Json.Reader Resources := fun j => do
  match ← j.fields? ["service", "resources"] with
  | [service, resources] =>
    return {
      service := ← defaulted ResourceModel.read {} service
      resources := ← defaulted (map ResourceModel.read) ∅ resources }
  | _ => none

/-! ## Schemas -/

/-- Reads a schema. -/
def read : Json.Reader Schema := fun j => do
  match ← j.fields? ["service_name", "class_name", "model", "paginators", "waiters",
      "resources", "documentation"] with
  | [serviceName, className, model, paginators, waiters, resources, documentation] =>
    return {
      serviceName := ← given text serviceName
      className := ← given text className
      model := ← given Model.read model
      paginators := ← defaulted (map PagingRule.read) ∅ paginators
      waiters := ← defaulted (map WaitingRule.read) ∅ waiters
      resources := ← optional Resources.read resources
      documentation := ← defaulted (map text) ∅ documentation }
  | _ => none

end Schema

end ServiceStubs

import ServiceStubs.Proofs.Stub.Linking

/-!
# Names of a module

The names that the text of a module uses are those of its annotations and of the
declarations of its dictionaries.  A name is bound in the text where one of its
statements was written for the import of that name, or where the module declares it.

## Main definitions

* `TypeExpr.Importable` — to write the head of an expression, its name must be
  imported.
* `ClassStub.mem_annotations_iff`, `TypedDict.of_mem_uses` — what declarations use.
* `Stub.Module.binds_of_statement`, `Stub.Module.binds_of_declared` — two ways in which
  a name is bound.
* `Stub.Module.wellBound_marked` — when all names of a text are bound.
-/

namespace ServiceStubs

open Stub

/-! ## Names that are used -/

/-- To write the head of the expression, its name must be imported. -/
structure TypeExpr.Importable (t : TypeExpr) : Prop where
  not_builtin : t.headImport.isBuiltins = false
  name : t.headImport.name = t.headName
  nonempty : t.headName ≠ ""

theorem mem_names_iff {as : List TypeExpr} {n : String} :
    n ∈ as.flatMap TypeExpr.names ↔ ∃ a ∈ as, ∃ t ∈ a.nodes, t.headName = n := by
  simp [TypeExpr.names]

/-- What a function is annotated with are its decorators and the types of its
signature. -/
theorem FunctionStub.mem_annotations_iff {f : FunctionStub} {a : TypeExpr} :
    a ∈ Annotated.annotations f ↔ a ∈ f.decorators ++ f.signatureTypes := by
  rw [List.mem_append, or_comm, ← List.mem_append]
  exact Iff.rfl

/-- The text of a class has all that the class is annotated with, and nothing
else. -/
theorem ClassStub.mem_annotations_iff {c : ClassStub} {a : TypeExpr} :
    a ∈ Annotated.annotations c ↔ a ∈ c.writtenTypes := by
  have hunfold : Annotated.annotations c =
      c.bases ++ c.attributes.map (·.type) ++ c.methods.flatMap Annotated.annotations := rfl
  simp only [hunfold, writtenTypes, List.mem_append, List.mem_flatMap,
    FunctionStub.mem_annotations_iff]

/-- The declaration of a typed dictionary uses what it needs by itself, and the names
in the types of its fields. -/
theorem TypedDict.of_mem_uses {d : TypedDict} {n : String} (h : n ∈ d.declaration.uses) :
    (∃ i ∈ d.definitionNeeds, i.name = n) ∨ ∃ f ∈ d.fields, n ∈ f.type.names := by
  rcases List.mem_cons.mp h with rfl | h
  · exact .inl ⟨_, List.mem_cons_self, rfl⟩
  obtain ⟨f, hf, h⟩ := List.mem_flatMap.mp h
  rcases List.mem_append.mp h with h | h
  · cases hrequired : f.required with
    | true => simp [hrequired] at h
    | false =>
        obtain rfl : n = "NotRequired" := by simpa [hrequired] using h
        have hany : d.fields.any (!·.required) :=
          List.any_eq_true.mpr ⟨f, hf, by rw [hrequired]; rfl⟩
        have hneeded : (⟨.typingExtensions, "NotRequired", none⟩ : Import) ∈ d.definitionNeeds := by
          simp [definitionNeeds, hany]
        exact .inl ⟨_, hneeded, rfl⟩
  · exact .inr ⟨f, hf, h⟩

/-! ## Names that are bound -/

/-- Names that are imported with a statement of their module are bound. -/
theorem exists_bound_importsFor {module : String} {is : List Import} {i : Import} (hi : i ∈ is)
    (halias : i.asName = none) (hname : i.name ≠ "") (hbuiltin : i.isBuiltins = false)
    (hself : i.source.isInPackage module = false) :
    ∃ g ∈ importsFor module is, i.name ∈ g.statement.bound := by
  obtain ⟨g, hg, hi⟩ := exists_mem_importsFor.mpr ⟨hi, hbuiltin, hself⟩
  exact ⟨g, hg, ImportGroup.mem_bound_statement hi halias hname⟩

namespace Stub.Module

variable {m : Module} {n : String}

theorem binds_of_statement {g : ImportGroup} (hg : g ∈ m.statements)
    (hn : n ∈ g.statement.bound) : m.marked.Binds n :=
  .inr (.inl ⟨g.statement, statement_mem_marked hg, hn⟩)

theorem binds_of_declared (h : ∃ kind, (kind, n) ∈ m.marked.declared) : m.marked.Binds n := by
  obtain ⟨kind, hkind⟩ := h
  exact .inr (.inr (List.mem_map_of_mem (f := Prod.snd) hkind))

theorem binds_of_declaration {d : Declaration} (hd : d ∈ m.body.declarations) :
    m.marked.Binds d.name :=
  binds_of_declared ⟨d.kind, mem_declared_iff.mpr ⟨d, hd, rfl, rfl⟩⟩

/-- The names of a text are bound when those of all declarations are, and those that
the module exports. -/
theorem wellBound_marked (huses : ∀ d ∈ m.body.declarations, ∀ n ∈ d.uses, m.marked.Binds n)
    (hexports : ∀ n ∈ m.exports, m.marked.Binds n) : m.marked.WellBound := by
  intro n hn
  rw [m.reads_marked.uses, m.reads_marked.exports] at hn
  rcases List.mem_append.mp hn with hn | hn
  · obtain ⟨d, hd, hn⟩ := List.mem_flatMap.mp hn
    exact huses d hd n hn
  · exact hexports n hn

end Stub.Module

end ServiceStubs

import ChartStream.Catalog.Basic
import ChartStream.Chart.Operation

/-!
# Operations on a catalog

The changes that a catalog undergoes, as data. A history of a catalog is a list of them.
-/

namespace ChartStream.Catalog

set_option autoImplicit false

/-- A change of a catalog. -/
inductive Operation where
  | create (layout : Layout)
  | addChart (params : Json)
  | replaceChart (params : Json)
  | obsoleteChart (id : String)
  | update (data : Samples) (sinceLast cleanup : Nat)
  | onChart (id : String) (operation : Chart.Operation)

/-- What an operation did: the catalog after it, the lines it sent and its answer. -/
structure Effect where
  catalog : Catalog
  lines : List Line
  answer : Answer

/-- The effect of a declaration, which changes nothing if refused. -/
def Effect.ofExcept (c : Catalog) : Except DeclarationError (Catalog × Chart) → Effect
  | .ok (changed, chart) => ⟨changed, [], .chart chart⟩
  | .error e => ⟨c, [], .failed e⟩

/-- Applies an operation. -/
def apply (c : Catalog) : Operation → Effect
  | .create layout =>
    match c.create layout with
    | (changed, none) => ⟨changed, [], .done⟩
    | (changed, some e) => ⟨changed, [], .failed e⟩
  | .addChart params => .ofExcept c (c.addChart params)
  | .replaceChart params => .ofExcept c (c.replaceChart params)
  | .obsoleteChart id =>
    let (changed, told) := c.obsoleteChart id
    ⟨changed, [], .flag told⟩
  | .update data sinceLast cleanup =>
    let cycle := c.update data sinceLast cleanup
    ⟨cycle.catalog, cycle.lines, .count cycle.updated⟩
  | .onChart id operation =>
    match c.get? id with
    | none => ⟨c, [], .noChart⟩
    | some chart =>
      let effect := chart.apply operation
      ⟨c.put effect.chart, effect.lines, effect.answer⟩

end ChartStream.Catalog

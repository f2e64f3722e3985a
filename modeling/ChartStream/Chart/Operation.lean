import ChartStream.Chart.Basic

/-!
# Operations on a chart

The changes that a chart undergoes, as data. A history of a chart is a list of them.
-/

namespace ChartStream

set_option autoImplicit false

/-- What an operation answers. -/
inductive Answer where
  | done
  | flag (value : Bool)
  | count (value : Nat)
  | dimension (declared : Dimension)
  | chart (declared : Chart)
  | failed (error : DeclarationError)
  /-- There is no chart of the id that the operation is for. -/
  | noChart

namespace Chart

/-- A change of a chart. -/
inductive Operation where
  | addDimension (params : Json)
  | insertDimension (d : Dimension)
  | addVariable (params : Json)
  /-- With `retire` the dimension stays until the next declaration. -/
  | removeDimension (id : String) (retire : Bool)
  | hideDimension (id : String) (hidden : Bool)
  | refresh
  | declare
  | obsolete
  | update (data : Samples) (sinceLast : Nat)

/-- What an operation did: the chart after it, the lines it sent and its answer. -/
structure Effect where
  chart : Chart
  lines : List Line
  answer : Answer

/-- The effect of a change that does nothing where there is nothing to change. -/
def Effect.ofOption (c : Chart) (changed : Option Chart) : Effect :=
  ⟨changed.getD c, [], .flag changed.isSome⟩

/-- The effect of a declaration, which is answered by `answer` and changes nothing if refused. -/
def Effect.ofExcept (c : Chart) (answer : Chart → Answer) :
    Except DeclarationError Chart → Effect
  | .ok changed => ⟨changed, [], answer changed⟩
  | .error e => ⟨c, [], .failed e⟩

/-- The answer to the declaration of a dimension: the dimension. -/
def dimensionAnswer (id : String) (c : Chart) : Answer :=
  match c.dimension? id with
  | some d => .dimension d
  | none => .done

/-- Applies an operation. -/
def apply (c : Chart) : Operation → Effect
  | .addDimension params =>
    match Dimension.ofParameters params with
    | .ok d => .ofExcept c (dimensionAnswer d.id) (c.insertDimension d)
    | .error e => ⟨c, [], .failed e⟩
  | .insertDimension d => .ofExcept c (dimensionAnswer d.id) (c.insertDimension d)
  | .addVariable params => .ofExcept c (fun _ => .done) (c.addVariable params)
  | .removeDimension id retire =>
    .ofOption c (if retire then c.retireDimension? id else c.removeDimension? id)
  | .hideDimension id hidden => .ofOption c (c.hideDimension? id hidden)
  | .refresh => ⟨c.refresh, [], .done⟩
  | .declare => ⟨c.declared, c.declaration, .done⟩
  | .obsolete => ⟨c.obsolete, c.obsoletion, .flag (!c.isObsolete)⟩
  | .update data sinceLast =>
    let cycle := c.update data sinceLast
    ⟨cycle.chart, cycle.lines, .flag cycle.updated⟩

end Chart

end ChartStream

import Lowering.Pass.Lower

/-! # Lowering sessions

A session lowers one top-level source graph with a registry of translators and options. Its
body cache lives as long as the session: a body of the library is translated once per
signature, by a nested pass of the same session, and every later call of that signature gets a
copy of the cached body model.

`Session.convertedModel` lowers the top-level graph on its first call and keeps the model, so
a second call gives the same model and leaves the cache alone.
-/

namespace Lowering

open Lowering.Ir Lowering.Pass Lowering.Translator

/-- The session's source of translated bodies, allowing `depth` nested body passes.

The intuition: a library whose bodies do not call themselves nests at most as deep as it has
bodies, so a depth of one more than that is never reached; beyond it a body counts as absent. -/
def bodySource (registry : Registry) (options : Options) (library : Source.Graph) :
    Nat → BodySource
  | 0 => fun _ _ _ cache => (.ok none, cache)
  | depth + 1 => fun identity inputs g cache =>
    if !library.hasFunction identity then (.ok none, cache)
    else
      let sig := Signature.ofCall identity inputs g
      match cache.lookup sig with
      | (some m, cache) => (.ok (some m), cache)
      | (none, cache) =>
        match library.bodyGraph? identity with
        | none => (.ok none, cache)
        | some src =>
          match src.specialize sig.shapes sig.types with
          | .error e => (.error e, cache)
          | .ok src =>
            let env : Env := ⟨registry, options, library, bodySource registry options library depth⟩
            match (lowerGraph env src identity).run cache with
            | (.error e, cache) => (.error e, cache)
            | (.ok m, cache) =>
              let m := if options.clearBodyNames then { m with graph := m.graph.clearNames } else m
              (.ok (some m), cache.insert sig m)

/-- A lowering session. -/
structure Session where
  library : Source.Graph
  registry : Registry
  options : Options
  cache : BodyCache := {}
  converted : Option Model := none

namespace Session

/-- The environment of the session's passes. -/
def env (s : Session) : Env :=
  ⟨s.registry, s.options, s.library,
    bodySource s.registry s.options s.library (s.library.functions.length + 1)⟩

/-- The top-level model, named after the options: lowered on the first call, kept after. -/
def convertedModel (s : Session) : Except LowerError Model × Session :=
  match s.converted with
  | some m => (.ok m, s)
  | none =>
    match (lowerGraph s.env s.library s.options.modelName).run s.cache with
    | (.ok m, cache) => (.ok m, { s with cache := cache, converted := some m })
    | (.error e, cache) => (.error e, { s with cache := cache })

end Session

/-- Lowers several models, each in its own session, in order. A model without a name is named
after the options' model name, with its position appended when there are several models. -/
def lowerAll (models : List Source.Graph) (registry : Registry) (options : Options) :
    List (Except LowerError Model) :=
  models.zipIdx.map fun (m, i) =>
    let name := match m.name with
      | some n => n
      | none => if models.length > 1 then options.modelName ++ "_" ++ toString i else options.modelName
    (Session.convertedModel ⟨m, registry, { options with modelName := name }, {}, none⟩).1

end Lowering

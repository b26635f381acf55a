/-
# Placement

A reconstructed method goes into a container that stands for the type which declares its
target.  Containers are nested as their types are.  An instantiation of a generic type
shares the container of its definition, and the number of parameters at the end of a
generic type's name is left off.
-/

import HookImage.Host.View
import HookImage.Image.Basic

namespace HookImage

/-- Which containers stand for which types. -/
structure Placement where
  /-- The namespace before all others. -/
  rootNamespace : String
  cache : Std.HashMap TypeId ContainerId := ∅

namespace Placement

/-- The name of a type without the number of its parameters. -/
def stripArity (name : String) : String := String.ofList (name.toList.takeWhile (· != '\x60'))

/-- The namespace of a container for a type in a namespace. -/
def namespaceFor (p : Placement) (nspace : String) : String :=
  if nspace.isEmpty then p.rootNamespace else s!"{p.rootNamespace}.{nspace}"

/-- The type that a container stands for: the type itself, or the definition of an
instantiation. -/
def collapse (view : HostView) (id : TypeId) : Except Error TypeInfo :=
  match view.type id with
  | none => .error (.typeNotFound id)
  | some t =>
    match t.genericDefinition with
    | none => .ok t
    | some definition =>
      match view.type definition with
      | some d => .ok d
      | none => .error (.typeNotFound definition)

/-- Adds a container for a type. -/
def create (p : Placement) (image : Image) (t : TypeInfo) (nspace : String)
    (parent : Option ContainerId) : ContainerId × Placement × Image :=
  let c : Container := { nspace, name := stripArity t.name, parent, standsFor := t.id }
  let (id, image) := image.addContainer c
  (id, { p with cache := p.cache.insert t.id id }, image)

/-- The container of a type, whose nesting may use up `depth` more levels.  What was added
on the way stays, also if the call fails in the end. -/
def containerWithin (view : HostView) (p : Placement) (image : Image) (id : TypeId) :
    Nat → Except Error ContainerId × Placement × Image
  | 0 => (.error (.recursionLimit nestingLimit), p, image)
  | depth + 1 =>
    match collapse view id with
    | .error e => (.error e, p, image)
    | .ok t =>
      match p.cache[t.id]? with
      | some existing => (.ok existing, p, image)
      | none =>
        match t.enclosing with
        | none =>
          let added := p.create image t (p.namespaceFor t.nspace) none
          (.ok added.1, added.2)
        | some outer =>
          match containerWithin view p image outer depth with
          | (.error e, p, image) => (.error e, p, image)
          | (.ok parent, p, image) =>
            let added := p.create image t "" (some parent)
            (.ok added.1, added.2)

/-- The container of a type.  It is added, with those around it, if there is none yet. -/
def container (p : Placement) (view : HostView) (image : Image) (id : TypeId) :
    Except Error ContainerId × Placement × Image :=
  containerWithin view p image id nestingLimit

end Placement
end HookImage

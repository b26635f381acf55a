/-
# Receivers become parameters

A body names its arguments by number: the receiver comes first, unless it is one of the declared
parameters, and the declared parameters follow (`MethodSig.arguments`).  A reconstructed method is
static, and the receiver of its method is put in front of the declared parameters, by reference for
a value type.  So every number goes on denoting what it did, except for a method whose receiver is
declared already: there the declared parameters move up by one
(`Synthesis.staticSignature_arguments`).
-/

import Mathlib
import HookImage.Proofs.Success
import HookImage.Rebuild.Synthesis

namespace HookImage

/-- What a number denotes in the body of a method. -/
inductive Argument where
  /-- The object that the method is called on. -/
  | receiver
  /-- A declared parameter, with its type. -/
  | declared (type : TypeSig)

/-- The arguments of a body in the order of their numbers. -/
def MethodSig.arguments (s : MethodSig) : List Argument :=
  (if s.hasThis && !s.explicitThis then [.receiver] else []) ++ s.params.map .declared

/-- A call passes as many values as the body has arguments. -/
@[simp] theorem MethodSig.length_arguments (s : MethodSig) : s.arguments.length = s.stackPops := by
  rw [arguments, stackPops, List.length_append, List.length_map, Nat.add_comm]
  split <;> rfl

/-- Whether a type is that of an argument of a method.  A receiver has the declaring type, which is
passed by reference if it is a value type. -/
inductive Argument.HasType (view : HostView) (m : MethodInfo) : Argument → TypeSig → Prop
  | declared (type : TypeSig) : HasType view m (.declared type) type
  | receiver {id : TypeId} {declaring : TypeInfo} {type : TypeSig}
    (declared : m.declaringType = some id) (known : view.type id = some declaring)
    (signature : view.typeSignature id = .ok type) :
    HasType view m .receiver (if declaring.isValueType then .byRef type else type)

/-- Declared arguments have their types. -/
theorem Argument.forall₂_declared (view : HostView) (m : MethodInfo) (types : List TypeSig) :
    List.Forall₂ (HasType view m) (types.map .declared) types := by
  rw [List.forall₂_map_left_iff, List.forall₂_same]
  exact fun type _ => .declared type

namespace Synthesis

variable {view : HostView} {m : MethodInfo} {signature : MethodSig} {names : List String}

/-- The names of the declared parameters of a method. -/
def declaredNames (m : MethodInfo) : List String :=
  (List.range m.signature.params.length).map m.paramName

/-- There is a name for each parameter. -/
theorem length_declaredNames (m : MethodInfo) :
    (declaredNames m).length = m.signature.params.length := by
  rw [declaredNames, List.length_map, List.length_range]

/-- **When a method has a static signature, and which**: the one it has, or for a method with a
receiver the one with the receiver in front of the declared parameters. -/
theorem staticSignature_eq_ok : staticSignature view m = .ok (signature, names) ↔
    (m.signature.hasThis = false ∧ signature = m.signature ∧ names = declaredNames m) ∨
    m.signature.hasThis = true ∧ ∃ receiver, Argument.HasType view m .receiver receiver ∧
      signature = { m.signature with
        hasThis := false
        explicitThis := false
        params := receiver :: m.signature.params } ∧
      names = "this" :: declaredNames m := by
  unfold staticSignature
  cases this : m.signature.hasThis with
  | false =>
    rw [if_neg Bool.false_ne_true, pure_eq_ok, Prod.mk.injEq]
    exact ⟨fun ⟨same, named⟩ => .inl ⟨rfl, same.symm, named.symm⟩,
      fun h => h.elim (fun ⟨_, same, named⟩ => ⟨same.symm, named.symm⟩)
        fun ⟨other, _⟩ => by cases other⟩
  | true =>
    rw [if_pos rfl]
    constructor
    · intro h
      split at h
      · cases h
      · rename_i id declared
        split at h
        · cases h
        · rename_i declaring known
          obtain ⟨type, typed, h⟩ := bind_eq_ok.1 h
          obtain ⟨rfl, rfl⟩ := Prod.mk.inj (pure_eq_ok.1 h)
          exact .inr ⟨rfl, _, .receiver declared known typed, rfl, rfl⟩
    · rintro (⟨other, -⟩ | ⟨-, receiver, type, rfl, rfl⟩)
      · cases other
      · cases type with
        | receiver declared known typed =>
          simp only [declared, known]
          exact bind_eq_ok.2 ⟨_, typed, rfl⟩

/-- Whether a static signature keeps the arguments of the body of a method: each number denotes an
argument of the type that it had, there are no others, and each has a name. -/
structure KeepsArguments (view : HostView) (m : MethodInfo) (signature : MethodSig)
    (names : List String) : Prop where
  static : signature.hasThis = false
  plain : signature.explicitThis = false
  count : signature.params.length = m.signature.stackPops
  types : List.Forall₂ (Argument.HasType view m) m.signature.arguments signature.params
  named : names.length = signature.params.length

/-- **Arguments keep their numbers unless the receiver is declared.**  A static signature has no
receiver and a name for each parameter, and all that is not about the receiver is kept.  The numbers
of the body go on denoting what they did exactly if the receiver is not said to be the first
declared parameter.  If it is, and there is one, it is passed twice and the declared parameters move
up by one. -/
theorem staticSignature_arguments (h : staticSignature view m = .ok (signature, names)) :
    (KeepsArguments view m signature names ↔ m.signature.explicitThis = false) ∧
    signature.hasThis = false ∧ names.length = signature.params.length ∧
    signature.convention = m.signature.convention ∧
    signature.genericCount = m.signature.genericCount ∧ signature.result = m.signature.result ∧
    (m.signature.hasThis = false → signature = m.signature) ∧
    (m.signature.hasThis = true → m.signature.explicitThis = true →
      signature.params.length = m.signature.stackPops + 1 ∧
      ∀ i, signature.params[i + 1]? = m.signature.params[i]?) := by
  have named := length_declaredNames m
  rcases staticSignature_eq_ok.1 h with ⟨this, rfl, rfl⟩ | ⟨this, receiver, type, rfl, rfl⟩
  · refine ⟨⟨fun keeps => keeps.plain, fun plain => ?_⟩, this, named, rfl, rfl, rfl, fun _ => rfl,
      fun other => absurd (this.symm.trans other) Bool.noConfusion⟩
    have arguments : m.signature.arguments = m.signature.params.map .declared := by
      rw [MethodSig.arguments, this]
      rfl
    have types := Argument.forall₂_declared view m m.signature.params
    rw [← arguments] at types
    exact ⟨this, plain, types.length_eq.symm.trans m.signature.length_arguments, types, named⟩
  · have kept : (receiver :: m.signature.params).length = m.signature.params.length + 1 := rfl
    refine ⟨⟨fun keeps => ?_, fun plain => ?_⟩, rfl, congrArg (· + 1) named, rfl, rfl, rfl,
      fun other => absurd (this.symm.trans other) Bool.noConfusion,
      fun _ declared => ⟨?_, fun i => rfl⟩⟩
    · -- A receiver that is declared would be counted twice.
      have count := keeps.count
      rw [MethodSig.stackPops, this, kept] at count
      cases declared : m.signature.explicitThis with
      | false => rfl
      | true =>
        rw [declared, Bool.not_true, Bool.and_false, if_neg Bool.false_ne_true] at count
        omega
    · have arguments : m.signature.arguments =
          .receiver :: m.signature.params.map .declared := by
        rw [MethodSig.arguments, this, plain]
        rfl
      have types := Argument.forall₂_declared view m m.signature.params
      have all := List.Forall₂.cons type types
      rw [← arguments] at all
      exact ⟨rfl, rfl, all.length_eq.symm.trans m.signature.length_arguments, all,
        congrArg (· + 1) named⟩
    · rw [kept, MethodSig.stackPops, this, declared]
      rfl

/-- A game with a generic value type and an instantiation of it. -/
def cellView : HostView where
  method _ := none
  body _ := none
  type id := [
    { id := ⟨1⟩, module := some ⟨1⟩, nspace := "Game", name := "Cell`1", isValueType := true },
    { id := ⟨2⟩, module := some ⟨1⟩, nspace := "Game", name := "Cell`1", isValueType := true,
      genericDefinition := some ⟨1⟩, genericArguments := [.primitive .int32] }
    ].find? fun t : TypeInfo => t.id == id
  module _ := none
  modules := []
  findType _ := none
  patches := none

/-- A method of a cell that is given a number.  Its receiver may be declared. -/
def setCell (explicitThis : Bool) : MethodInfo where
  id := ⟨1⟩
  name := "Set"
  declaringType := some ⟨2⟩
  signature := { hasThis := true, explicitThis, params := [.primitive .int32] }

/-- The type of a cell as the receiver of its methods. -/
def cellReceiver : TypeSig :=
  .byRef (.generic true (.reference (.topLevel (some ⟨1⟩) "Game" "Cell`1")) [.primitive .int32])

/-- The hypothesis is satisfiable: the number of a cell stays argument 1 behind a reference to the
cell, and where the receiver is declared it moves up. -/
theorem staticSignature_arguments_cell :
    (∃ signature names, staticSignature cellView (setCell false) = .ok (signature, names) ∧
      KeepsArguments cellView (setCell false) signature names ∧
      signature.params = [cellReceiver, .primitive .int32] ∧ names = ["this", "arg0"]) ∧
    ∃ signature names, staticSignature cellView (setCell true) = .ok (signature, names) ∧
      ¬KeepsArguments cellView (setCell true) signature names ∧
      signature.params[1]? = (setCell true).signature.params[0]? := by
  have found (explicitThis : Bool) : staticSignature cellView (setCell explicitThis) =
      .ok ({ hasThis := false, explicitThis := false, params := [cellReceiver, .primitive .int32] },
        ["this", "arg0"]) := by
    cases explicitThis <;> cbv
  obtain ⟨plain, -⟩ := staticSignature_arguments (found false)
  obtain ⟨declared, -, -, -, -, -, -, moved⟩ := staticSignature_arguments (found true)
  refine ⟨⟨_, _, found false, plain.2 rfl, rfl, rfl⟩, _, _, found true, fun keeps => ?_,
    (moved rfl rfl).2 0⟩
  cases declared.1 keeps

end Synthesis
end HookImage

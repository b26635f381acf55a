/-
# The headers of streams read back

A header of a stream ends with the name and zeros up to a multiple of four.  The reader looks
for the first zero, so it finds every name without one, and goes on where the next header begins
(`Reader.streamHeaders_eq_ok`).  The streams lie one behind the other, each at the offset that
its header tells (`Reader.liesAt_headersOf`).
-/

import HookImage.Proofs.Image.Layout

namespace HookImage

open Bytes (LiesAt)
open File

namespace Reader

/-- Whether a name is read back from its bytes: it has no zero, and is decoded as it was
encoded. -/
def Readable (name : String) : Prop :=
  0 ∉ Bytes.utf8 name ∧ Text.decodeUtf8 (Bytes.utf8 name) = name

instance (name : String) : Decidable (Readable name) := inferInstanceAs (Decidable (_ ∧ _))

/-- The headers of streams that lie one behind the other from an offset on. -/
def headersOf (offset : Nat) : List Stream → List StreamHeader
  | [] => []
  | s :: rest => ⟨s.name, offset, s.bytes.length⟩ :: headersOf (offset + s.bytes.length) rest

/-- Headers have the names of their streams. -/
@[simp] theorem map_name_headersOf (offset : Nat) (ss : List Stream) :
    (headersOf offset ss).map (·.name) = ss.map (·.name) := by
  induction ss generalizing offset with
  | nil => rfl
  | cons s ss ih => rw [headersOf, List.map_cons, List.map_cons, ih]

/-- Each stream begins where the one before it ends. -/
theorem isChain_headersOf (offset : Nat) (ss : List Stream) :
    (headersOf offset ss).IsChain fun h next => next.offset = h.offset + h.size := by
  induction ss generalizing offset with
  | nil => exact .nil
  | cons s ss ih =>
    cases ss with
    | nil => exact .singleton _
    | cons s' ss => exact .cons_cons rfl (ih _)

/-- Streams whose sizes are multiples of four keep to them. -/
theorem aligned_headersOf {offset : Nat} (start : offset % 4 = 0) {ss : List Stream}
    (sizes : ∀ s ∈ ss, s.bytes.length % 4 = 0) :
    ∀ h ∈ headersOf offset ss, h.offset % 4 = 0 ∧ h.size % 4 = 0 := by
  induction ss generalizing offset with
  | nil => exact fun h mem => by cases mem
  | cons s ss ih =>
    obtain ⟨size, sizes⟩ := List.forall_mem_cons.1 sizes
    exact List.forall_mem_cons.2 ⟨⟨start, size⟩, ih (by omega) sizes⟩

/-- Each stream lies where its header tells. -/
theorem liesAt_headersOf {data : Array UInt8} {root offset : Nat} {ss : List Stream}
    (here : LiesAt data.toList (root + offset) (ss.map (·.bytes)).flatten) :
    List.Forall₂ (fun h s => LiesAt data.toList (root + h.offset) s.bytes)
      (headersOf offset ss) ss := by
  induction ss generalizing offset with
  | nil => exact .nil
  | cons s ss ih =>
    rw [List.map_cons, List.flatten_cons] at here
    refine .cons here.left (ih ?_)
    rw [← Nat.add_assoc]
    exact here.next rfl

/-- A name takes a zero behind it and is filled up to a multiple of four. -/
theorem length_paddedName (name : String) :
    (paddedName name).length = Bytes.roundUp 4 ((Bytes.utf8 name).length + 1) := by
  simp [paddedName]

/-- The first zero behind a name without one ends it. -/
theorem findIdx?_paddedName {name : String} (nonzero : 0 ∉ Bytes.utf8 name) (rest : Bytes) :
    (paddedName name ++ rest).findIdx? (· == 0) = some (Bytes.utf8 name).length := by
  rw [paddedName, Bytes.aligned, List.append_assoc, List.append_assoc]
  exact Bytes.findIdx?_zero nonzero _

/-- **The headers of streams are read back.** -/
theorem streamHeaders_eq_ok {data : Array UInt8} {ss : List Stream}
    (readable : ∀ s ∈ ss, Readable s.name) {offset cursor : Nat} {headers : Bytes}
    (written : File.streamHeaders offset ss = .ok headers)
    (here : LiesAt data.toList cursor headers) :
    streamHeaders data cursor ss.length = .ok (headersOf offset ss) := by
  induction ss generalizing offset cursor headers with
  | nil => rfl
  | cons s ss ih =>
    obtain ⟨named, readable⟩ := List.forall_mem_cons.1 readable
    obtain ⟨start, hstart, written⟩ := bind_eq_ok.1 written
    obtain ⟨size, hsize, written⟩ := bind_eq_ok.1 written
    obtain ⟨others, hothers, written⟩ := bind_eq_ok.1 written
    obtain ⟨smallStart, rfl⟩ := checkedSize_eq_ok.1 hstart
    obtain ⟨smallSize, rfl⟩ := checkedSize_eq_ok.1 hsize
    cases written
    rw [List.append_assoc, List.append_assoc] at here
    have second := here.nextWord
    have third := second.nextWord
    have fourth := third.next (length_paddedName s.name)
    obtain ⟨back, rest⟩ := third.extract
    rw [List.append_assoc] at rest
    -- The reader sees all of the file from the name on, and stops at the first zero.
    have found := findIdx?_paddedName named.1 (others ++ back)
    have name : (paddedName s.name ++ (others ++ back)).take (Bytes.utf8 s.name).length =
        Bytes.utf8 s.name := by
      rw [paddedName, Bytes.aligned, List.append_assoc, List.append_assoc]
      exact List.take_left
    refine bind_eq_ok.2 ⟨_, here.left.number smallStart,
      bind_eq_ok.2 ⟨_, second.left.number smallSize, ?_⟩⟩
    dsimp only
    rw [rest, found]
    dsimp only
    rw [name, named.2]
    exact bind_eq_ok.2 ⟨_, ih readable hothers fourth, rfl⟩

end Reader
end HookImage

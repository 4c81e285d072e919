import ByteBasic.Proofs.Compiler.Sessions
import ByteBasic.Proofs.Program.Linking

/-!
# Where streams are laid out

Compiling puts out items for several streams in turn; they are laid out stream by stream. What is put
out at some point of the source in one stream stands together, and its place among all items is known
from what was put out before (`place`): it is the start of its stream and the items that the stream
has so far.
-/

namespace ByteBasic

def ofStream (scope : Scope) (out : List (Scope × Item)) : List Item :=
  (out.filter fun entry => entry.1 == scope).map Prod.snd

/-- All items in the order in which they are laid out, when there is a number of functions. -/
def laidOut (functions : Nat) (out : List (Scope × Item)) : List Item :=
  ofStream .global out ++ (List.range functions).flatMap fun id => ofStream (.function id) out

/-- The number of the first item of a stream. -/
def streamStart (out : List (Scope × Item)) : Scope → Nat
  | .global => 0
  | .function id => (laidOut id out).length

/-- The number of the next item of a stream when some of what is put out has been put out. -/
def place (out done : List (Scope × Item)) (scope : Scope) : Nat :=
  streamStart out scope + (ofStream scope done).length

/-- A stream that exists when there is a number of functions. -/
def Scope.Exists (functions : Nat) (scope : Scope) : Prop :=
  ∀ id, scope = .function id → id < functions

section Places

variable {functions : Nat} {scope other : Scope} {out done rest : List (Scope × Item)}
variable {part : List Item}

@[simp] theorem ofStream_append (scope : Scope) (xs ys : List (Scope × Item)) :
    ofStream scope (xs ++ ys) = ofStream scope xs ++ ofStream scope ys := by
  simp [ofStream]

theorem ofStream_same (scope : Scope) (part : List Item) :
    ofStream scope (part.map fun item => (scope, item)) = part := by
  induction part with
  | nil => rfl
  | cons item part ih => simpa [ofStream] using ih

theorem ofStream_other (h : other ≠ scope) (part : List Item) :
    ofStream scope (part.map fun item => (other, item)) = [] := by
  simp [ofStream, List.filter_eq_nil_iff, h]

theorem place_same (out done : List (Scope × Item)) (scope : Scope) (part : List Item) :
    place out (done ++ part.map fun item => (scope, item)) scope =
      place out done scope + part.length := by
  rw [place, place, ofStream_append, ofStream_same, List.length_append, Nat.add_assoc]

/-- What is put out in other streams does not. -/
theorem place_other (out done : List (Scope × Item)) (h : other ≠ scope) (part : List Item) :
    place out (done ++ part.map fun item => (other, item)) scope = place out done scope := by
  rw [place, place, ofStream_append, ofStream_other h, List.append_nil]

theorem laidOut_succ (functions : Nat) (out : List (Scope × Item)) :
    laidOut (functions + 1) out = laidOut functions out ++ ofStream (.function functions) out := by
  simp [laidOut, List.range_succ]

theorem laidOut_prefix (out : List (Scope × Item)) {few many : Nat} (h : few ≤ many) :
    laidOut few out <+: laidOut many out := by
  induction h with
  | refl => exact List.prefix_rfl
  | step _ ih => exact ih.trans (by rw [laidOut_succ]; exact List.prefix_append ..)

theorem stands_stream (h : scope.Exists functions) :
    Stands (laidOut functions out) (streamStart out scope) (ofStream scope out) := by
  cases scope with
  | global => exact List.prefix_append ..
  | function id =>
    obtain ⟨more, hmore⟩ := laidOut_prefix out (show id + 1 ≤ functions from h id rfl)
    refine ⟨more, ?_⟩
    rw [← hmore, laidOut_succ, List.append_assoc, streamStart, List.drop_left]

/-- What is put out together in one stream stands at its place. -/
theorem stands_place (h : scope.Exists functions)
    (hout : out = done ++ (part.map fun item => (scope, item)) ++ rest) :
    Stands (laidOut functions out) (place out done scope) part := by
  have hstream : ofStream scope out = ofStream scope done ++ (part ++ ofStream scope rest) := by
    rw [hout, ofStream_append, ofStream_append, ofStream_same, List.append_assoc]
  have hstands : Stands (laidOut functions out) (streamStart out scope)
      (ofStream scope done ++ (part ++ ofStream scope rest)) := by
    rw [← hstream]
    exact stands_stream h
  exact hstands.right.left

end Places

theorem Session.items_eq (session : Session) :
    session.items = laidOut session.state.functions.length (streamed session.events) := by
  have hstream : ∀ scope, session.streamItems scope = ofStream scope (streamed session.events) := by
    intro scope
    simp only [streamItems, ofStream, streamed, emissions, List.filter_map, List.map_map]
    rfl
  simp only [items, laidOut, hstream]

end ByteBasic

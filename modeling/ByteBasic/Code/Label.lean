/-!
# Labels

A label is a place in the code that jumps can go to. It is known by its number and gets its offset
once, when the code before it has been laid out.

* `Labels.named`: the label that the source knows by a name, made on first use.
* `Labels.fresh`: a new label that no source text can refer to, whatever it is called.
* `Labels.define`: places a label; a label that already has a place keeps it.
-/

namespace ByteBasic

/-- The number of a label, in the order in which labels are made. -/
abbrev LabelId := Nat

/-- What is known of a label. -/
structure Label where
  name : String
  /-- Whether the source can refer to the label by its name. -/
  isNamed : Bool
  /-- The offset of the label, once it is placed. -/
  offset : Option Nat
  deriving DecidableEq

/-- All labels made so far, each at the place of its number. -/
structure Labels where
  entries : List Label
  deriving DecidableEq

namespace Labels

def empty : Labels :=
  ⟨[]⟩

def size (labels : Labels) : Nat :=
  labels.entries.length

/-- The name of a label; a number that was never given out has none. -/
def name (labels : Labels) (id : LabelId) : String :=
  (labels.entries[id]?.map Label.name).getD ""

/-- The offset of a label, if it is placed. -/
def offset? (labels : Labels) (id : LabelId) : Option Nat :=
  labels.entries[id]?.bind Label.offset

def add (labels : Labels) (label : Label) : LabelId × Labels :=
  (labels.size, ⟨labels.entries ++ [label]⟩)

/-- A new label that no source text can refer to. -/
def fresh (labels : Labels) (name : String) : LabelId × Labels :=
  labels.add ⟨name, false, none⟩

/-- The number of the label that the source knows by a name. -/
def find? (labels : Labels) (name : String) : Option LabelId :=
  labels.entries.findIdx? fun label => label.isNamed && label.name == name

/-- The label that the source knows by a name, made on first use. -/
def named (labels : Labels) (name : String) : LabelId × Labels :=
  match labels.find? name with
  | some id => (id, labels)
  | none => labels.add ⟨name, true, none⟩

/-- Places a label. A label that is already placed keeps its offset, which is then the error. -/
def define (labels : Labels) (id : LabelId) (offset : Nat) : Except Nat Unit × Labels :=
  match labels.offset? id with
  | some existing => (.error existing, labels)
  | none =>
    (.ok (), ⟨labels.entries.modify id fun label => { label with offset := some offset }⟩)

/-- A label that is placed for the first time gets the offset. -/
theorem offset?_define_self (labels : Labels) {id : LabelId} (offset : Nat)
    (h : id < labels.size) (free : labels.offset? id = none) :
    (labels.define id offset).2.offset? id = some offset := by
  have h' : id < labels.entries.length := h
  simp only [define, free]
  simp [offset?, h']

theorem define_of_free (labels : Labels) {id : LabelId} (offset : Nat)
    (free : labels.offset? id = none) :
    labels.define id offset = (.ok (), (labels.define id offset).2) := by
  simp only [define, free]

theorem define_of_placed (labels : Labels) {id : LabelId} {existing : Nat} (offset : Nat)
    (h : labels.offset? id = some existing) :
    labels.define id offset = (.error existing, labels) := by
  simp [define, h]

theorem name_define (labels : Labels) (id other : LabelId) (offset : Nat) :
    (labels.define id offset).2.name other = labels.name other := by
  unfold define
  split
  · rfl
  · simp only [name, List.getElem?_modify]
    cases labels.entries[other]? with
    | none => simp
    | some label => split <;> rfl

end Labels

end ByteBasic

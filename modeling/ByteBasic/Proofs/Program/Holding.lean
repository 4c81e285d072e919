import ByteBasic.Proofs.Program.Tracking

/-!
# Where the bytes of variables are

At a line, a variable that is declared above it has its byte in its register or in its slot, as the
storage says. Variables that are declared further down have theirs in the slots that they are going
to have: control can come back from there (`Storage.Holds`). Where nothing is in a register, all bytes
are in their slots, so that control can go from any such line to any other (`Holds.arrive`).

Operands then have the same bytes for the program and for the compiled code (`Holds.eval?`).
-/

namespace ByteBasic

open Source (Outline State)

def slot (id : VarId) : UInt8 :=
  UInt8.ofNat (255 - id)

theorem slot_inj {i j : Nat} (hi : i < 255) (hj : j < 255) (h : slot i = slot j) : i = j := by
  unfold slot at h
  rw [← UInt8.toNat_inj, UInt8.toNat_ofNat', UInt8.toNat_ofNat'] at h
  omega

namespace Storage

/-- The bytes of all variables: those known at a point of the source, and those declared later. -/
structure Holds (total : Nat) (storage : Storage) (core : Core) (value : VarId → UInt8) : Prop where
  coherent : storage.Coherent core
  known : ∀ id < storage.vars.length, storage.value core id = value id
  unknown : ∀ id < total, storage.vars.length ≤ id → core.mem (slot id) = value id

namespace Holds

variable {total : Nat} {storage before after : Storage} {core core' : Core}
variable {value : VarId → UInt8} {id : Nat} {byte : UInt8}

/-- Slots of variables that are not known yet belong to nobody. -/
theorem not_address (tidy : before.Tidy) (htotal : total ≤ 255) (hid : id < total)
    (hge : before.vars.length ≤ id) :
    ∀ j < before.vars.length, (before.get j).address ≠ slot id := by
  intro (j : Nat) hj heq
  rw [tidy.address j hj] at heq
  have hsame : j = id := slot_inj (by omega) (by omega) heq
  omega

theorem spares {used : List Register} (h : Holds total before core value) (tidy : before.Tidy)
    (htotal : total ≤ 255) (same : before.SameVars after)
    (hspares : Spares used before core after core') : Holds total after core' value where
  coherent := hspares.coherent
  known id hid := by
    rw [same.length_eq] at hid
    rw [hspares.value hid]
    exact h.known id hid
  unknown id hid hge := by
    rw [same.length_eq] at hge
    rw [hspares.memory (not_address tidy htotal hid hge)]
    exact h.unknown id hid hge

theorem assigns (h : Holds total before core value) (tidy : before.Tidy) (htotal : total ≤ 255)
    (same : before.SameVars after) (hid : id < before.vars.length)
    (hassigns : Assigns id byte before core after core') :
    Holds total after core' (fun other => if other = id then byte else value other) where
  coherent := hassigns.coherent
  known j hj := by
    rw [same.length_eq] at hj
    by_cases hji : j = id
    · subst hji
      rw [if_pos rfl]
      exact hassigns.value
    · rw [if_neg hji, hassigns.others j hj hji]
      exact h.known j hj
  unknown j hj hge := by
    rw [same.length_eq] at hge
    have hji : j ≠ id := Nat.ne_of_gt (Nat.lt_of_lt_of_le hid hge)
    rw [if_neg hji, hassigns.memory _ (not_address tidy htotal hj hge)]
    exact h.unknown j hj hge

/-- A declaration names a byte that is there already. -/
theorem declares (h : Holds total before core value) {name : String} {scope : Scope}
    (hd : Declares name scope before after id) (hafter : after.Tidy)
    (htotal : after.vars.length ≤ total) : Holds total after core value := by
  rcases hd with ⟨-, rfl⟩ | ⟨-, rfl, rfl⟩
  · exact h
  · have hclean : ∀ j r, ((before.extended name scope).get j).register = some r →
        ((before.extended name scope).get j).modified = false →
          core.reg r.byte = core.mem ((before.extended name scope).get j).address := by
      intro j r hr
      rw [register_extended] at hr
      rw [get_extended_of_lt (lt_of_register hr)]
      exact h.coherent.clean j r hr
    refine ⟨⟨hafter.agrees, hafter.distinct, hclean⟩, fun j hj => ?_, fun j hj hge => ?_⟩
    · rw [length_extended] at hj htotal
      rcases Nat.lt_succ_iff_lt_or_eq.1 hj with hlt | rfl
      · rw [Storage.value, get_extended_of_lt hlt]
        exact h.known j hlt
      · have hunbound : ((before.extended name scope).get before.vars.length).register = none := by
          rw [get_extended_self]
          rfl
        rw [value_of_unbound hunbound, hafter.address _ (by rw [length_extended]; exact hj)]
        exact h.unknown _ htotal (Nat.le_refl _)
    · rw [length_extended] at hge
      exact h.unknown j hj (Nat.le_of_lt hge)

theorem endStatement (h : Holds total storage core value) :
    Holds total (Storage.endStatement.run storage).state core value := by
  have hkeeps := keeps_endStatement h.coherent
  generalize (Storage.endStatement.run storage).state = after at hkeeps
  refine ⟨hkeeps.coherent, fun id hid => ?_, fun id hid hge => ?_⟩
  · rw [hkeeps.same.length_eq] at hid
    rw [hkeeps.value id hid]
    exact h.known id hid
  · rw [hkeeps.same.length_eq] at hge
    exact h.unknown id hid hge

/-- With nothing in a register, all bytes are in their slots. -/
theorem memory (h : Holds total storage core value) (tidy : storage.Tidy)
    (hunbound : storage.Unbound) : ∀ id < total, core.mem (slot id) = value id := by
  intro id hid
  rcases Nat.lt_or_ge id storage.vars.length with hlt | hge
  · rw [← h.known id hlt, value_of_unbound (hunbound id), tidy.address id hlt]
    rfl
  · exact h.unknown id hid hge

/-- And then they are where any other such point of the source wants them. -/
theorem of_memory (tidy : storage.Tidy) (hunbound : storage.Unbound)
    (htotal : storage.vars.length ≤ total)
    (h : ∀ id < total, core.mem (slot id) = value id) : Holds total storage core value where
  coherent := by
    refine coherent_of_unbound hunbound (fun r id howner => ?_) tidy.distinct core
    have hregister := (tidy.agrees id r).2 howner
    rw [hunbound id] at hregister
    cases hregister
  known id hid := by
    rw [value_of_unbound (hunbound id), tidy.address id hid]
    exact h id (Nat.lt_of_lt_of_le hid htotal)
  unknown id hid _ := h id hid

end Holds

end Storage

/-! ## Operands -/

/-- A computation that comes to something on variables and numbers reads no port. -/
theorem Computation.portless_of_value? {storage : Storage} {core : Core} {old byte : UInt8}
    {computation : Computation}
    (h : computation.value? (Referent.value? storage core) old = some byte) :
    computation.Portless := by
  have hread : ∀ {referent : Referent} {byte}, referent.value? storage core = some byte →
      referent.Portless := Referent.portless_of_value?
  intro referent hmem
  cases computation with
  | set source =>
    rw [List.mem_singleton.1 hmem]
    exact hread h
  | combine left op right =>
    simp only [Computation.value?, Option.bind_eq_bind, Option.bind_eq_some_iff] at h
    obtain ⟨a, ha, b, hb, -⟩ := h
    rcases List.mem_cons.1 hmem with rfl | hmem
    · exact hread ha
    · rw [List.mem_singleton.1 hmem]
      exact hread hb
  | compound op source =>
    simp only [Computation.value?, Option.bind_eq_bind, Option.bind_eq_some_iff] at h
    obtain ⟨b, hb, -⟩ := h
    rw [List.mem_singleton.1 hmem]
    exact hread hb

namespace Storage

theorem Declares.tidy {before after : Storage} {name : String} {scope : Scope} {id : VarId}
    (h : Declares name scope before after id) (tidy : before.Tidy)
    (hlength : after.vars.length ≤ 255) : after.Tidy := by
  rcases h with ⟨-, rfl⟩ | ⟨-, -, rfl⟩
  · exact tidy
  · rw [length_extended] at hlength
    exact tidy_extended tidy hlength

theorem Declares.lookup? {before after : Storage} {name : String} {scope : Scope} {id : VarId}
    (h : Declares name scope before after id) : after.lookup? name scope = some id := by
  have hfind : after.find? name scope = some id := by
    rcases h with ⟨hold, rfl⟩ | ⟨hnew, rfl, rfl⟩
    · exact hold
    · unfold find? at hnew ⊢
      simp [extended, List.findIdx?_append, hnew, Variable.new]
  unfold Storage.lookup?
  rw [hfind]

namespace Holds

variable {total : Nat} {storage : Storage} {core : Core} {scope : Scope} {outline : Outline}
variable {source : State} {byte : UInt8} {value : VarId → UInt8}

theorem eval? (h : Holds total storage core source.value)
    (names : ∀ name, outline.lookup? name = storage.lookup? name scope) {operand : Operand}
    (heval : outline.eval? source operand = some byte) :
    ∃ referent, Referent.ofOperand storage scope operand = .ok referent ∧
      referent.value? storage core = some byte := by
  unfold Outline.eval? at heval
  split at heval
  · next word =>
    rw [names] at heval
    simp only [Referent.ofOperand, Referent.ofWord]
    cases hlookup : storage.lookup? word scope with
    | some id =>
      rw [hlookup] at heval
      refine ⟨.variable id, rfl, ?_⟩
      rw [← heval]
      exact congrArg some (h.known id (Referent.lt_of_lookup? hlookup))
    | none =>
      rw [hlookup] at heval
      simp only at heval
      split at heval
      · next hspelling =>
        cases heval
        exact ⟨.literal byte, hspelling, rfl⟩
      · cases heval
  · cases heval
    exact ⟨.literal byte, rfl, rfl⟩
  · cases heval

theorem written? (h : Holds total storage core source.value)
    (names : ∀ name, outline.lookup? name = storage.lookup? name scope) {operand : Operand}
    {bytes : List UInt8} (hwritten : outline.written? source operand = some bytes) :
    Build.bytes? storage scope core operand = some bytes := by
  cases operand with
  | text written => exact hwritten
  | word word =>
    obtain ⟨byte, heval, rfl⟩ := Option.map_eq_some_iff.1 hwritten
    obtain ⟨referent, hreferent, hvalue⟩ := h.eval? names heval
    simp only [Build.bytes?, hreferent, hvalue, Option.map_some]

/-- The new byte of a variable is what the computation comes to. -/
theorem updated? (h : Holds total storage core source.value)
    (names : ∀ name, outline.lookup? name = storage.lookup? name scope) {id : VarId}
    (hid : id < storage.vars.length) {update : Update} {computation : Computation}
    (hresolves : Build.Resolves storage scope update computation)
    (hupdated : outline.updated? source id update = some byte) :
    computation.value? (Referent.value? storage core) (storage.value core id) = some byte := by
  -- An operand has the byte in the program that its referent holds.
  have hread : ∀ {operand byte referent}, outline.eval? source operand = some byte →
      Referent.ofOperand storage scope operand = .ok referent →
        referent.value? storage core = some byte := by
    intro operand byte referent heval hreferent
    obtain ⟨other, hother, hvalue⟩ := h.eval? names heval
    rw [hreferent] at hother
    cases hother
    exact hvalue
  cases update with
  | set operand =>
    obtain ⟨referent, rfl, hreferent⟩ := hresolves
    exact hread hupdated hreferent
  | combine left op right =>
    obtain ⟨l, r, rfl, hl, hr⟩ := hresolves
    simp only [Outline.updated?, Option.bind_eq_bind, Option.bind_eq_some_iff] at hupdated
    obtain ⟨a, ha, b, hb, hbyte⟩ := hupdated
    simp only [Computation.value?, hread ha hl, hread hb hr, Option.bind_eq_bind, Option.bind_some]
    exact hbyte
  | compound op operand =>
    obtain ⟨referent, rfl, hreferent⟩ := hresolves
    simp only [Outline.updated?, Option.bind_eq_bind, Option.bind_eq_some_iff] at hupdated
    obtain ⟨b, hb, hbyte⟩ := hupdated
    simp only [Computation.value?, hread hb hreferent, Option.bind_eq_bind, Option.bind_some,
      h.known id hid]
    exact hbyte

end Holds

end Storage

end ByteBasic

import Chip8.Keypad.Keymap
import Mathlib.Data.List.Induction

/-!
# The last event of a key counts

A host passes on the events of its keyboard, each a code and whether the key went down
(`Keypad.Event`).  A code may be unknown to the keymap, stand for a key of the keypad, or stand for
a number that is no key; an event of the first kind is ignored, one of the last is a fault, and
neither changes a key (`Keypad.EventCase`).

Which event set a key last can be told without a keypad (`Keypad.lastPressed`).  After any events,
a key is held exactly if that one pressed it (`isHeld_afterEvents`), and all ways of reading the
keypad say so.  The headline is `afterEvents_released`.
-/

namespace Chip8

namespace Keymap

/-- The code stands for the key. -/
def StandsFor (m : Keymap) (code : String) (k : Fin 16) : Prop :=
  (m.key? code).bind Number.toInt? = some (k.val : Int)

instance (m : Keymap) (code : String) (k : Fin 16) : Decidable (m.StandsFor code k) :=
  inferInstanceAs (Decidable (_ = _))

/-- The codes of the keymap. -/
def codes (m : Keymap) : List String := m.map Prod.fst

/-- All numbers of the keymap are those of keys. -/
def OnKeypad (m : Keymap) : Prop := ∀ entry ∈ m, ∃ k : Fin 16, entry.2.toInt? = some (k.val : Int)

theorem key?_eq_none_iff (m : Keymap) (code : String) : m.key? code = none ↔ code ∉ m.codes := by
  rw [key?, List.lookup_eq_none_iff, codes, List.mem_map]
  simp only [List.mem_reverse, bne_iff_ne, not_exists, not_and]
  exact forall₂_congr fun _ _ => ne_comm

theorem mem_of_key? {m : Keymap} {code : String} {key : Number} (h : m.key? code = some key) :
    (code, key) ∈ m := by
  obtain ⟨before, after, hsplit, -⟩ := List.lookup_eq_some_iff.1 h
  rw [← List.mem_reverse, hsplit]
  exact List.mem_append_right before List.mem_cons_self

theorem standsFor_iff {m : Keymap} {code : String} {key : Number} (h : m.key? code = some key)
    (k : Fin 16) : m.StandsFor code k ↔ key.toInt? = some (k.val : Int) := by
  rw [StandsFor, h, Option.bind_some]

theorem not_standsFor_of_none {m : Keymap} {code : String} (h : m.key? code = none) (k : Fin 16) :
    ¬ m.StandsFor code k := by
  intro hk
  rw [StandsFor, h] at hk
  cases hk

theorem mem_codes_of_standsFor {m : Keymap} {code : String} {k : Fin 16}
    (h : m.StandsFor code k) : code ∈ m.codes := by
  by_contra hnone
  exact not_standsFor_of_none ((m.key?_eq_none_iff code).2 hnone) k h

/-- In a keymap of keys alone, every code stands for one. -/
theorem OnKeypad.exists_standsFor {m : Keymap} (hkeys : m.OnKeypad) {code : String}
    (h : code ∈ m.codes) : ∃ k, m.StandsFor code k := by
  obtain ⟨key, hcode⟩ := Option.ne_none_iff_exists'.1 fun hnone =>
    (m.key?_eq_none_iff code).1 hnone h
  obtain ⟨k, hk⟩ := hkeys _ (mem_of_key? hcode)
  exact ⟨k, (standsFor_iff hcode k).2 hk⟩

theorem StandsFor.unique {m : Keymap} {code : String} {j k : Fin 16} (hj : m.StandsFor code j)
    (hk : m.StandsFor code k) : j = k :=
  Fin.ext (Int.ofNat.inj (Option.some.inj (hj.symm.trans hk)))

end Keymap

namespace Keypad

/-! ### Events -/

/-- An event of a keyboard. -/
structure Event where
  code : String
  pressed : Bool

/-- The keypad after an event, whether it is accepted or not. -/
def afterEvent (m : Keymap) (p : Keypad) (event : Event) : Keypad :=
  match p.applyEvent m event.code event.pressed with
  | .ok (p', _) => p'
  | .error _ => p

/-- The keypad after events, one after the other. -/
def afterEvents (m : Keymap) (p : Keypad) (events : List Event) : Keypad :=
  events.foldl (afterEvent m) p

/-- Whether the last event for a key pressed it; without one, it is not held. -/
def lastPressed (m : Keymap) (events : List Event) (k : Fin 16) : Bool :=
  ((events.filter fun event => m.StandsFor event.code k).getLast?.map Event.pressed).getD false

/-! ### One event -/

/-- A number is that of a key or is refused. -/
theorem keyAt_cases (key : Number) :
    (∃ k : Fin 16, key.toInt? = some (k.val : Int) ∧ keyAt key = .ok k) ∨
      (∀ k : Fin 16, key.toInt? ≠ some (k.val : Int)) ∧ keyAt key = .error (keyFault key) := by
  cases hkey : keyAt key with
  | ok k => exact .inl ⟨k, (keyAt_eq_ok_iff key k).1 hkey, rfl⟩
  | error f =>
    right
    constructor
    · intro k hk
      rw [(keyAt_eq_ok_iff key k).2 hk] at hkey
      cases hkey
    · unfold keyAt at hkey
      split at hkey
      · split at hkey
        · cases hkey
        · exact hkey.symm
      · exact hkey.symm

/-- What an event does, by cases: its code is unknown and nothing happens, it sets a key, or it is
refused as it stands for no key. -/
inductive EventCase (m : Keymap) (p : Keypad) (event : Event) : Prop
  | unknown (hcode : m.key? event.code = none)
      (happly : p.applyEvent m event.code event.pressed = .ok (p, false))
  | sets (k : Fin 16) (hcode : m.StandsFor event.code k)
      (happly : p.applyEvent m event.code event.pressed = .ok (p.set k event.pressed, true))
  | refused (key : Number) (hcode : m.key? event.code = some key)
      (hnone : ∀ k : Fin 16, key.toInt? ≠ some (k.val : Int))
      (happly : p.applyEvent m event.code event.pressed = .error (keyFault key))

theorem event_cases (m : Keymap) (p : Keypad) (event : Event) : EventCase m p event := by
  cases hcode : m.key? event.code with
  | none =>
    refine .unknown hcode ?_
    rw [applyEvent, hcode]
  | some key =>
    have happly : p.applyEvent m event.code event.pressed =
        ((keyAt key).map fun k => p.set k event.pressed).map fun p => (p, true) := by
      rw [applyEvent, hcode]
      rfl
    rcases keyAt_cases key with ⟨k, hk, hkey⟩ | ⟨hnone, hkey⟩
    · rw [hkey] at happly
      exact .sets k ((Keymap.standsFor_iff hcode k).2 hk) happly
    · rw [hkey] at happly
      exact .refused key hcode hnone happly

/-- An event changes the key that its code stands for, and no other. -/
theorem isHeld_afterEvent (m : Keymap) (p : Keypad) (event : Event) (k : Fin 16) :
    (afterEvent m p event).isHeld k =
      if m.StandsFor event.code k then event.pressed else p.isHeld k := by
  cases event_cases m p event with
  | unknown hcode happly =>
    rw [afterEvent, happly, if_neg (Keymap.not_standsFor_of_none hcode k)]
  | sets j hcode happly =>
    rw [afterEvent, happly]
    show (p.set j event.pressed).isHeld k = _
    rw [isHeld_set]
    by_cases hjk : j = k
    · subst hjk
      rw [if_pos rfl, if_pos hcode]
    · rw [if_neg hjk, if_neg fun hk => hjk (hcode.unique hk)]
  | refused key hcode hnone happly =>
    rw [afterEvent, happly, if_neg fun hk => hnone k ((Keymap.standsFor_iff hcode k).1 hk)]

/-! ### Many events -/

theorem lastPressed_concat (m : Keymap) (events : List Event) (event : Event) (k : Fin 16) :
    lastPressed m (events ++ [event]) k =
      if m.StandsFor event.code k then event.pressed else lastPressed m events k := by
  unfold lastPressed
  rw [List.filter_append]
  by_cases hk : m.StandsFor event.code k
  · simp [hk]
  · simp [hk]

/-- A key is held exactly if the last event for it pressed it. -/
theorem isHeld_afterEvents (m : Keymap) (events : List Event) (k : Fin 16) :
    (afterEvents m released events).isHeld k = lastPressed m events k := by
  induction events using List.reverseRecOn with
  | nil => exact isHeld_released k
  | append_singleton events event ih =>
    rw [lastPressed_concat, ← ih, ← isHeld_afterEvent, afterEvents, afterEvents, List.foldl_append]
    rfl

/-! ### What a host sees -/

/-- How a keypad answers an event. -/
structure Answers (m : Keymap) (p : Keypad) (event : Event) : Prop where
  /-- If its code stands for a key or is unknown, the event is accepted, and the answer tells which
  of the two it is. -/
  accepted : (event.code ∈ m.codes → ∃ k, m.StandsFor event.code k) →
    p.applyEvent m event.code event.pressed =
      .ok (afterEvent m p event, decide (event.code ∈ m.codes))
  /-- If its code stands for a number that is no key, the event is a fault, and changes nothing. -/
  refused : event.code ∈ m.codes → (∀ k, ¬ m.StandsFor event.code k) →
    (∃ f, p.applyEvent m event.code event.pressed = .error f ∧ f.code = .outOfBounds) ∧
      afterEvent m p event = p

theorem answers (m : Keymap) (p : Keypad) (event : Event) : Answers m p event := by
  cases event_cases m p event with
  | unknown hcode happly =>
    have hentry := (m.key?_eq_none_iff event.code).1 hcode
    constructor
    · intro _
      rw [afterEvent, happly, decide_eq_false hentry]
    · intro hmem
      exact absurd hmem hentry
  | sets k hcode happly =>
    constructor
    · intro _
      rw [afterEvent, happly, decide_eq_true (Keymap.mem_codes_of_standsFor hcode)]
    · intro _ hnone
      exact absurd hcode (hnone k)
  | refused key hcode hnone happly =>
    constructor
    · intro hstands
      obtain ⟨k, hk⟩ := hstands (List.mem_map_of_mem (Keymap.mem_of_key? hcode))
      exact absurd ((Keymap.standsFor_iff hcode k).1 hk) (hnone k)
    · intro _ _
      rw [afterEvent, happly]
      exact ⟨⟨keyFault key, rfl, rfl⟩, rfl⟩

/-- The ways of reading a keypad all tell which keys were pressed last. -/
structure ShowsLast (m : Keymap) (events : List Event) (p : Keypad) : Prop where
  isHeld_eq : ∀ k, p.isHeld k = lastPressed m events k
  isPressed_eq : ∀ k : Fin 16, p.isPressed (.ofInt k.val) = .ok (lastPressed m events k)
  snapshot_eq : p.snapshot = (List.finRange 16).map (lastPressed m events)
  firstPressed?_iff : ∀ k, p.firstPressed? = some k ↔
    lastPressed m events k = true ∧ ∀ j < k, lastPressed m events j = false
  firstPressed?_none : p.firstPressed? = none ↔ ∀ k, lastPressed m events k = false

theorem showsLast_of_isHeld {m : Keymap} {events : List Event} {p : Keypad}
    (h : ∀ k, p.isHeld k = lastPressed m events k) : ShowsLast m events p where
  isHeld_eq := h
  isPressed_eq k := by
    have hkey : keyAt (.ofInt k.val) = .ok k := (keyAt_eq_ok_iff _ k).2 (Number.toInt?_ofInt _)
    rw [isPressed, hkey, ← h]
    rfl
  snapshot_eq := by
    rw [p.snapshot_eq, funext h]
  firstPressed?_iff k := by
    rw [firstPressed?_eq_some_iff]
    simp only [h]
  firstPressed?_none := by
    rw [firstPressed?_eq_none_iff]
    simp only [h]

/-- After any events on a keypad with no key held, the keys that are held are those that the last
event for them pressed, and every further event is answered by what its code stands for.  With a
keymap of keys alone, every event is accepted. -/
theorem afterEvents_released (m : Keymap) (events : List Event) :
    let p := afterEvents m released events
    ShowsLast m events p ∧ (∀ event, Answers m p event) ∧
      (m.OnKeypad → ∀ event, p.applyEvent m event.code event.pressed =
        .ok (afterEvent m p event, decide (event.code ∈ m.codes))) := by
  intro p
  refine ⟨showsLast_of_isHeld (isHeld_afterEvents m events), answers m p, ?_⟩
  intro hkeys event
  exact (answers m p event).accepted hkeys.exists_standsFor

/-- Two codes stand for key 5. -/
def shared : Keymap := [("KeyW", .ofInt 5), ("KeyX", .ofInt 0), ("ArrowUp", .ofInt 5)]

/-- One more code stands for a number that is no key. -/
def overfull : Keymap := ("KeyP", .ofInt 16) :: shared

/-- Key 5 is up although one of its two codes is still down, as the last event let go of it.  A code
without an entry is no key, and one with the number 16 is a fault. -/
theorem afterEvents_released_shared :
    let events : List Event :=
      [⟨"KeyW", true⟩, ⟨"ArrowUp", true⟩, ⟨"toString", true⟩, ⟨"KeyW", false⟩]
    shared.OnKeypad ∧
      (afterEvents shared released events).isPressed (.ofInt 5) = .ok false ∧
      (afterEvents shared released events).firstPressed? = none ∧
      (afterEvents shared released events).applyEvent shared "toString" true =
        .ok (afterEvents shared released (events ++ [⟨"toString", true⟩]), false) ∧
      ∃ f, (afterEvents overfull released events).applyEvent overfull "KeyP" true = .error f ∧
        f.code = .outOfBounds := by
  intro events
  have hkeys : shared.OnKeypad := by
    intro entry hentry
    simp only [shared, List.mem_cons, List.not_mem_nil, or_false] at hentry
    rcases hentry with rfl | rfl | rfl
    · exact ⟨5, rfl⟩
    · exact ⟨0, rfl⟩
    · exact ⟨5, rfl⟩
  obtain ⟨hshows, -, haccepted⟩ := afterEvents_released shared events
  obtain ⟨-, hanswers, -⟩ := afterEvents_released overfull events
  refine ⟨hkeys, ?_, ?_, ?_, ?_⟩
  · rw [show (5 : Int) = ((5 : Fin 16).val : Int) from rfl, hshows.isPressed_eq]
    exact congrArg Except.ok (by decide +kernel)
  · exact hshows.firstPressed?_none.2 (by decide +kernel)
  · have hnext : afterEvents shared released (events ++ [⟨"toString", true⟩]) =
        afterEvent shared (afterEvents shared released events) ⟨"toString", true⟩ :=
      List.foldl_append
    rw [hnext]
    exact haccepted hkeys ⟨"toString", true⟩
  · exact ((hanswers ⟨"KeyP", true⟩).refused (by decide +kernel) (by decide +kernel)).1

end Keypad

end Chip8

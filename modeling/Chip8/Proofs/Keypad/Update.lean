import Chip8.Keypad.Update
import Chip8.Proofs.Keypad.Events
import Chip8.Proofs.Number.Numeral
import Mathlib

/-!
# Updates of several keys

An update is a list of entries, each a name and the state that its key is to get.  What counts of it
are its changes (`KeyUpdate.changes`): every name that ends up with a state, once, in the order of
`KeyUpdate.Precedes`, which puts the names that are indices first, by their values, and the other
names after them, by their first entries.  The keypad makes the changes up to the first one that it
refuses, and keeps them (`Keypad.MakesChanges`).

If all names are indices, the order of the entries plays no part, every key gets its last state, and
the update is a fault exactly if a greater index has a state as well (`Keypad.SettlesKeys`).  The
headline is `setKeys_changes`.
-/

namespace Chip8

namespace KeyUpdate

/-! ### The order of names -/

/-- The names of the entries, in their order. -/
def names (u : KeyUpdate) : List String := u.map Prod.fst

/-- The name is a natural number below `2 ^ 32 - 1`, written plainly. -/
def IsIndex (name : String) : Prop := ∃ n < 0xFFFFFFFF, name = toString n

/-- The order in which the names of an update come: the indices in ascending order, and then the
other names in the order of their first entries. -/
inductive Precedes (u : KeyUpdate) : String → String → Prop
  | ascending {m n : Nat} (hmn : m < n) (hn : n < 0xFFFFFFFF) :
      Precedes u (toString m) (toString n)
  | indexFirst {a b : String} (ha : IsIndex a) (hb : ¬ IsIndex b) : Precedes u a b
  | inserted {a b : String} (ha : ¬ IsIndex a) (hb : ¬ IsIndex b)
      (hab : u.names.idxOf a < u.names.idxOf b) : Precedes u a b

theorem isIndex_iff (name : String) : IsIndex name ↔ ∃ n, plainIndex? name = some n := by
  simp only [IsIndex, plainIndex?_eq_some_iff, and_comm]

theorem not_isIndex_iff (name : String) : ¬ IsIndex name ↔ plainIndex? name = none := by
  rw [isIndex_iff, ← Option.isSome_iff_exists, Option.not_isSome_iff_eq_none]

/-- Without repetitions, names come in the order of their first entries. -/
theorem eraseDups_pairwise (names : List String) :
    names.eraseDups.Pairwise fun a b => names.idxOf a < names.idxOf b := by
  induction names using List.reverseRecOn with
  | nil => exact .nil
  | append_singleton names name ih =>
    -- The last name is one of those before it, or it comes first after all of them.
    have hkeep : names.eraseDups.Pairwise fun a b =>
        (names ++ [name]).idxOf a < (names ++ [name]).idxOf b := by
      refine ih.imp_of_mem fun {a b} ha hb hab => ?_
      rw [List.mem_eraseDups] at ha hb
      rwa [List.idxOf_append_of_mem ha, List.idxOf_append_of_mem hb]
    rw [List.eraseDups_append]
    by_cases hname : name ∈ names
    · have hnone : [name].removeAll names = [] := by simp [List.removeAll, hname]
      rw [hnone, List.eraseDups_nil, List.append_nil]
      exact hkeep
    · have hone : [name].removeAll names = [name] := by simp [List.removeAll, hname]
      rw [hone, List.pairwise_append]
      refine ⟨hkeep, List.pairwise_singleton _ _, fun a ha b hb => ?_⟩
      rw [List.mem_eraseDups] at ha hb
      obtain rfl := List.mem_singleton.1 hb
      rw [List.idxOf_append_of_mem ha, List.idxOf_append_of_notMem hname]
      exact Nat.lt_add_right _ (List.idxOf_lt_length_of_mem ha)

theorem plainIndex?_injective {a b : String} {n : Nat} (ha : plainIndex? a = some n)
    (hb : plainIndex? b = some n) : a = b := by
  rw [plainIndex?_eq_some_iff] at ha hb
  rw [ha.1, hb.1]

/-- The values of the names that are indices ascend. -/
theorem sorted_indices_pairwise (u : KeyUpdate) :
    ((u.names.eraseDups.filterMap plainIndex?).mergeSort (· ≤ ·)).Pairwise (· < ·) := by
  have hdistinct : (u.names.eraseDups.filterMap plainIndex?).Nodup := by
    refine (eraseDups_pairwise u.names).filterMap plainIndex? fun a b hab m hm n hn => ?_
    rintro rfl
    obtain rfl := plainIndex?_injective hm hn
    exact Nat.lt_irrefl _ hab
  have hsorted : ((u.names.eraseDups.filterMap plainIndex?).mergeSort (· ≤ ·)).Pairwise
      (· ≤ ·) := by
    simpa using List.pairwise_mergeSort' (r := (· ≤ ·)) (u.names.eraseDups.filterMap plainIndex?)
  have hnodup := (List.mergeSort_perm _ (· ≤ ·)).nodup_iff.2 hdistinct
  exact (hsorted.and hnodup).imp fun h => Nat.lt_of_le_of_ne h.1 h.2

theorem orderedNames_eq (u : KeyUpdate) : u.orderedNames =
    ((u.names.eraseDups.filterMap plainIndex?).mergeSort (· ≤ ·)).map toString ++
      u.names.eraseDups.filter fun name => (plainIndex? name).isNone := rfl

theorem mem_indices_iff (u : KeyUpdate) (n : Nat) :
    n ∈ (u.names.eraseDups.filterMap plainIndex?).mergeSort (· ≤ ·) ↔
      toString n ∈ u.names ∧ n < 0xFFFFFFFF := by
  rw [List.mem_mergeSort, List.mem_filterMap]
  simp only [List.mem_eraseDups, plainIndex?_eq_some_iff]
  constructor
  · rintro ⟨_, hname, rfl, hn⟩
    exact ⟨hname, hn⟩
  · rintro ⟨hname, hn⟩
    exact ⟨_, hname, rfl, hn⟩

theorem orderedNames_pairwise (u : KeyUpdate) : u.orderedNames.Pairwise u.Precedes := by
  rw [orderedNames_eq, List.pairwise_append]
  refine ⟨?_, ?_, ?_⟩
  · rw [List.pairwise_map]
    refine (sorted_indices_pairwise u).imp_of_mem fun {m n} _ hn hmn => ?_
    exact .ascending hmn ((mem_indices_iff u n).1 hn).2
  · refine List.Pairwise.imp_of_mem (fun {a b} ha hb hab => ?_)
      ((eraseDups_pairwise u.names).filter _)
    rw [List.mem_filter, Option.isNone_iff_eq_none, ← not_isIndex_iff] at ha hb
    exact .inserted ha.2 hb.2 hab
  · intro a ha b hb
    obtain ⟨n, hn, rfl⟩ := List.mem_map.1 ha
    rw [List.mem_filter, Option.isNone_iff_eq_none, ← not_isIndex_iff] at hb
    exact .indexFirst ⟨n, ((mem_indices_iff u n).1 hn).2, rfl⟩ hb.2

theorem mem_orderedNames (u : KeyUpdate) (name : String) :
    name ∈ u.orderedNames ↔ name ∈ u.names := by
  rw [orderedNames_eq, List.mem_append, List.mem_map, List.mem_filter, List.mem_eraseDups,
    Option.isNone_iff_eq_none, ← not_isIndex_iff]
  constructor
  · rintro (⟨n, hn, rfl⟩ | ⟨hname, -⟩)
    · exact ((mem_indices_iff u n).1 hn).1
    · exact hname
  · intro hname
    by_cases hindex : IsIndex name
    · obtain ⟨n, hn, rfl⟩ := hindex
      exact .inl ⟨n, (mem_indices_iff u n).2 ⟨hname, hn⟩, rfl⟩
    · exact .inr ⟨hname, hindex⟩

/-! ### Changes -/

/-- A name and the state that its key is to get. -/
structure Change where
  name : String
  pressed : Bool
deriving DecidableEq

/-- The change as an entry of an update. -/
def Change.entry (c : Change) : String × Option Bool := (c.name, some c.pressed)

/-- The changes among some entries: those that ask for a state. -/
def changesAmong (entries : KeyUpdate) : List Change :=
  entries.filterMap fun entry => entry.2.map (Change.mk entry.1)

/-- What an update changes: every name that ends up with a state, in the order of names. -/
def changes (u : KeyUpdate) : List Change := changesAmong u.ordered

theorem changes_eq (u : KeyUpdate) : u.changes =
    u.orderedNames.filterMap fun name => (u.lastState name).map (Change.mk name) := by
  rw [changes, changesAmong, ordered, List.filterMap_map]
  rfl

theorem mem_names_of_lastState {u : KeyUpdate} {name : String} {pressed : Bool}
    (h : u.lastState name = some pressed) : name ∈ u.names := by
  rw [lastState, Option.join_eq_some_iff, List.lookup_eq_some_iff] at h
  obtain ⟨before, after, hsplit, -⟩ := h
  have hmem : (name, some pressed) ∈ u.reverse := hsplit ▸ by simp
  exact List.mem_map_of_mem (f := Prod.fst) (List.mem_reverse.1 hmem)

theorem mem_changes (u : KeyUpdate) (c : Change) :
    c ∈ u.changes ↔ u.lastState c.name = some c.pressed := by
  rw [changes_eq, List.mem_filterMap]
  constructor
  · rintro ⟨name, -, hname⟩
    obtain ⟨pressed, hpressed, rfl⟩ := Option.map_eq_some_iff.1 hname
    exact hpressed
  · intro h
    refine ⟨c.name, (mem_orderedNames u c.name).2 (mem_names_of_lastState h), ?_⟩
    rw [h]
    rfl

theorem changes_pairwise (u : KeyUpdate) :
    u.changes.Pairwise fun a b => u.Precedes a.name b.name := by
  rw [changes_eq]
  refine (orderedNames_pairwise u).filterMap _ fun a b hab c hc d hd => ?_
  obtain ⟨_, -, rfl⟩ := Option.map_eq_some_iff.1 hc
  obtain ⟨_, -, rfl⟩ := Option.map_eq_some_iff.1 hd
  exact hab

/-! ### Updates of indices -/

/-- All names of the update are indices. -/
def OnIndices (u : KeyUpdate) : Prop := ∀ entry ∈ u, IsIndex entry.1

/-- Both names are indices, and the value of the first is less. -/
def Ascends (a b : String) : Prop :=
  ∃ m n, m < n ∧ n < 0xFFFFFFFF ∧ a = toString m ∧ b = toString n

theorem Precedes.ascends {u : KeyUpdate} {a b : String} (h : u.Precedes a b) (hb : IsIndex b) :
    Ascends a b := by
  cases h with
  | ascending hmn hn => exact ⟨_, _, hmn, hn, rfl, rfl⟩
  | indexFirst _ hnot => exact absurd hb hnot
  | inserted _ hnot _ => exact absurd hb hnot

theorem isIndex_of_mem_changes {u : KeyUpdate} (hu : u.OnIndices) {c : Change}
    (hc : c ∈ u.changes) : IsIndex c.name := by
  obtain ⟨entry, hentry, hname⟩ :=
    List.mem_map.1 (mem_names_of_lastState ((mem_changes u c).1 hc))
  exact hname ▸ hu entry hentry

theorem changes_ascend {u : KeyUpdate} (hu : u.OnIndices) :
    u.changes.Pairwise fun a b => Ascends a.name b.name :=
  (changes_pairwise u).imp_of_mem fun _ hb hab => hab.ascends (isIndex_of_mem_changes hu hb)

theorem Ascends.asymm {a b : String} (hab : Ascends a b) (hba : Ascends b a) : False := by
  obtain ⟨m, n, hmn, hn, rfl, rfl⟩ := hab
  obtain ⟨k, l, hkl, hl, hn', hm'⟩ := hba
  obtain rfl := Nat.repr_inj.1 hn'
  obtain rfl := Nat.repr_inj.1 hm'
  exact Nat.lt_asymm hmn hkl

/-- The changes of indices are told by the last state of every name. -/
theorem changes_congr {u v : KeyUpdate} (hu : u.OnIndices) (hv : v.OnIndices)
    (h : ∀ name, v.lastState name = u.lastState name) : v.changes = u.changes := by
  -- Both lists ascend strictly and have the same members.
  have : Std.Irrefl fun a b : Change => Ascends a.name b.name := ⟨fun _ h => h.asymm h⟩
  have : Std.Antisymm fun a b : Change => Ascends a.name b.name :=
    ⟨fun _ _ hab hba => (hab.asymm hba).elim⟩
  refine (changes_ascend hv).eq_of_mem_iff (changes_ascend hu) fun c => ?_
  rw [mem_changes, mem_changes, h]

end KeyUpdate

namespace Keypad

open KeyUpdate

/-! ### Changes of a keypad -/

/-- The keypad after a change, unless its name is that of no key. -/
def change (p : Keypad) (c : Change) : Except Fault Keypad :=
  p.setKey (Numeral.read c.name) c.pressed

/-- What changes, made one after the other, come to: all are made, or one is refused, and then those
before it have been made and no other. -/
inductive MakesChanges (p : Keypad) : List Change → Keypad × Option Fault → Prop
  | complete {cs : List Change} {q : Keypad} (hall : cs.foldlM change p = .ok q) :
      MakesChanges p cs (q, none)
  | refused {made left : List Change} {c : Change} {q : Keypad} {f : Fault}
      (hmade : made.foldlM change p = .ok q) (hc : q.change c = .error f) :
      MakesChanges p (made ++ c :: left) (q, some f)

/-- Entries that ask for no state can be left out. -/
theorem applyEntries_changesAmong (p : Keypad) (entries : KeyUpdate) :
    p.applyEntries ((changesAmong entries).map Change.entry) = p.applyEntries entries := by
  induction entries generalizing p with
  | nil => rfl
  | cons entry rest ih =>
    obtain ⟨name, state?⟩ := entry
    cases state? with
    | none => exact ih p
    | some pressed =>
      show p.applyEntries ((name, some pressed) :: (changesAmong rest).map Change.entry) = _
      rw [applyEntries, applyEntries]
      cases p.setKey (Numeral.read name) pressed with
      | ok q => exact ih q
      | error f => rfl

theorem setKeys_eq (p : Keypad) (u : KeyUpdate) :
    p.setKeys u = p.applyEntries (u.changes.map Change.entry) :=
  (applyEntries_changesAmong p u.ordered).symm

theorem applyEntries_cons_of_ok {p q : Keypad} {c : Change} {cs : List Change}
    (h : p.change c = .ok q) :
    p.applyEntries ((c :: cs).map Change.entry) = q.applyEntries (cs.map Change.entry) := by
  rw [change] at h
  rw [List.map_cons, Change.entry, applyEntries, h]

theorem applyEntries_cons_of_error {p : Keypad} {c : Change} {cs : List Change} {f : Fault}
    (h : p.change c = .error f) : p.applyEntries ((c :: cs).map Change.entry) = (p, some f) := by
  rw [change] at h
  rw [List.map_cons, Change.entry, applyEntries, h]

theorem makesChanges_applyEntries (p : Keypad) (cs : List Change) :
    MakesChanges p cs (p.applyEntries (cs.map Change.entry)) := by
  induction cs generalizing p with
  | nil => exact .complete rfl
  | cons c cs ih =>
    cases hc : p.change c with
    | error f =>
      rw [applyEntries_cons_of_error hc]
      show MakesChanges p ([] ++ c :: cs) (p, some f)
      exact .refused rfl hc
    | ok q =>
      -- The first change is made in both cases, before all that are made of the others.
      have hcons (cs : List Change) : (c :: cs).foldlM change p = cs.foldlM change q := by
        rw [List.foldlM_cons, hc]
        rfl
      have hrest := ih q
      rw [applyEntries_cons_of_ok hc]
      generalize q.applyEntries (cs.map Change.entry) = result at hrest ⊢
      cases hrest with
      | complete hall => exact .complete ((hcons _).trans hall)
      | refused hmade hrefused => exact .refused ((hcons _).trans hmade) hrefused

theorem change_eq_ok_iff (p q : Keypad) (c : Change) :
    p.change c = .ok q ↔ ∃ k, keyAt (Numeral.read c.name) = .ok k ∧ q = p.set k c.pressed := by
  unfold change setKey
  cases keyAt (Numeral.read c.name) with
  | ok k => simp [Except.map, eq_comm]
  | error f => simp [Except.map]

theorem code_of_change_eq_error {p : Keypad} {c : Change} {f : Fault}
    (h : p.change c = .error f) : f.code = .outOfBounds := by
  unfold change setKey at h
  rcases keyAt_cases (Numeral.read c.name) with ⟨k, -, hkey⟩ | ⟨-, hkey⟩
  · rw [hkey] at h
    cases h
  · rw [hkey] at h
    cases h
    rfl

section Made

variable {p q : Keypad} {cs : List Change}

theorem foldlM_change_cons {c : Change} (h : (c :: cs).foldlM change p = .ok q) :
    ∃ k, keyAt (Numeral.read c.name) = .ok k ∧ cs.foldlM change (p.set k c.pressed) = .ok q := by
  rw [List.foldlM_cons] at h
  cases hc : p.change c with
  | error f =>
    rw [hc] at h
    cases h
  | ok p' =>
    obtain ⟨k, hk, rfl⟩ := (change_eq_ok_iff p p' c).1 hc
    rw [hc] at h
    exact ⟨k, hk, h⟩

/-- The names of changes that are made are those of keys. -/
theorem keyAt_of_made (h : cs.foldlM change p = .ok q) :
    ∀ c ∈ cs, ∃ k, keyAt (Numeral.read c.name) = .ok k := by
  induction cs generalizing p with
  | nil => exact fun c hc => absurd hc List.not_mem_nil
  | cons c cs ih =>
    obtain ⟨k, hk, hrest⟩ := foldlM_change_cons h
    exact List.forall_mem_cons.2 ⟨⟨k, hk⟩, ih hrest⟩

/-- Changes of other keys leave a key as it is. -/
theorem isHeld_of_made_others (h : cs.foldlM change p = .ok q) {k : Fin 16}
    (hk : ∀ c ∈ cs, keyAt (Numeral.read c.name) ≠ .ok k) : q.isHeld k = p.isHeld k := by
  induction cs generalizing p with
  | nil => cases h; rfl
  | cons c cs ih =>
    obtain ⟨j, hj, hrest⟩ := foldlM_change_cons h
    obtain ⟨hc, hcs⟩ := List.forall_mem_cons.1 hk
    have hjk : j ≠ k := fun hjk => hc (hjk ▸ hj)
    rw [ih hrest hcs, isHeld_set, if_neg hjk]

/-- The only change of a key gives it its state. -/
theorem isHeld_of_made (h : cs.foldlM change p = .ok q)
    (hdistinct : cs.Pairwise fun a b => ∀ k, keyAt (Numeral.read a.name) = .ok k →
      keyAt (Numeral.read b.name) ≠ .ok k) {c : Change} (hc : c ∈ cs) {k : Fin 16}
    (hk : keyAt (Numeral.read c.name) = .ok k) : q.isHeld k = c.pressed := by
  induction cs generalizing p with
  | nil => exact absurd hc List.not_mem_nil
  | cons d ds ih =>
    obtain ⟨j, hj, hrest⟩ := foldlM_change_cons h
    obtain ⟨hd, hds⟩ := List.pairwise_cons.1 hdistinct
    rcases List.mem_cons.1 hc with rfl | hc
    · obtain rfl : k = j := Except.ok.inj (hk.symm.trans hj)
      rw [isHeld_of_made_others hrest fun e he => hd e he k hk, isHeld_set, if_pos rfl]
    · exact ih hrest hds hc

end Made

/-! ### Updates of indices -/

theorem keyAt_toString_iff {n : Nat} (hn : n < 0xFFFFFFFF) (k : Fin 16) :
    keyAt (Numeral.read (toString n)) = .ok k ↔ n = k.val := by
  rw [keyAt_eq_ok_iff, Numeral.read_toString (by omega), Number.toInt?_ofInt, Option.some.injEq]
  omega

/-- The changes of indices are those of different keys. -/
theorem ne_keyAt_of_ascends {a b : String} (h : Ascends a b) (k : Fin 16)
    (ha : keyAt (Numeral.read a) = .ok k) : keyAt (Numeral.read b) ≠ .ok k := by
  obtain ⟨m, n, hmn, hn, rfl, rfl⟩ := h
  rw [keyAt_toString_iff (Nat.lt_trans hmn hn)] at ha
  rw [ne_eq, keyAt_toString_iff hn]
  omega

/-- Among changes of indices, those of keys come before any that is refused. -/
theorem keyAt_of_ascends {a b : String} (h : Ascends a b) {k : Fin 16}
    (hb : keyAt (Numeral.read b) = .ok k) : ∃ j, keyAt (Numeral.read a) = .ok j := by
  obtain ⟨m, n, hmn, hn, rfl, rfl⟩ := h
  rw [keyAt_toString_iff hn] at hb
  exact ⟨⟨m, by omega⟩, (keyAt_toString_iff (Nat.lt_trans hmn hn) _).2 rfl⟩

/-- What an update of indices comes to: every key gets its last state, if there is one, and the
update is a fault exactly if a greater index has a state as well. -/
structure SettlesKeys (u : KeyUpdate) (p : Keypad) : Prop where
  isHeld_eq : ∀ k : Fin 16,
    (p.setKeys u).1.isHeld k = (u.lastState (toString k.val)).getD (p.isHeld k)
  isSome_iff : (p.setKeys u).2.isSome ↔ ∃ n, 15 < n ∧ (u.lastState (toString n)).isSome
  outOfBounds : ∀ f ∈ (p.setKeys u).2, f.code = .outOfBounds

theorem makesChanges_setKeys (p : Keypad) (u : KeyUpdate) :
    MakesChanges p u.changes (p.setKeys u) :=
  setKeys_eq p u ▸ makesChanges_applyEntries p u.changes

theorem refused_of_change_eq_error {p : Keypad} {c : Change} {f : Fault}
    (h : p.change c = .error f) (k : Fin 16) : keyAt (Numeral.read c.name) ≠ .ok k := by
  intro hk
  rw [(change_eq_ok_iff p _ c).2 ⟨k, hk, rfl⟩] at h
  cases h

/-- Of the changes of indices all those of keys are made, whether or not one is refused. -/
theorem exists_made (p : Keypad) {u : KeyUpdate} (hu : u.OnIndices) :
    ∃ made, made.foldlM change p = .ok (p.setKeys u).1 ∧ made <+: u.changes ∧
      ∀ c ∈ u.changes, ∀ k, keyAt (Numeral.read c.name) = .ok k → c ∈ made := by
  have hasc := changes_ascend hu
  have hmakes := makesChanges_setKeys p u
  generalize p.setKeys u = result, u.changes = cs at hasc hmakes ⊢
  cases hmakes with
  | complete hall => exact ⟨cs, hall, List.prefix_rfl, fun c hc _ _ => hc⟩
  | @refused made left c q f hmade hc =>
    refine ⟨made, hmade, List.prefix_append _ _, fun d hd k hk => ?_⟩
    rw [List.mem_append, List.mem_cons] at hd
    rcases hd with hd | rfl | hd
    · exact hd
    · exact absurd hk (refused_of_change_eq_error hc k)
    · -- A change after the refused one has a greater index, which is that of no key either.
      obtain ⟨-, hleft, -⟩ := List.pairwise_append.1 hasc
      obtain ⟨j, hj⟩ := keyAt_of_ascends ((List.pairwise_cons.1 hleft).1 d hd) hk
      exact absurd hj (refused_of_change_eq_error hc j)

theorem isHeld_setKeys (p : Keypad) {u : KeyUpdate} (hu : u.OnIndices) (k : Fin 16) :
    (p.setKeys u).1.isHeld k = (u.lastState (toString k.val)).getD (p.isHeld k) := by
  obtain ⟨made, hmade, hprefix, hkeys⟩ := exists_made p hu
  have hname : keyAt (Numeral.read (toString k.val)) = .ok k :=
    (keyAt_toString_iff (by omega) k).2 rfl
  cases hlast : u.lastState (toString k.val) with
  | some pressed =>
    have hmem := hkeys ⟨toString k.val, pressed⟩ ((mem_changes u _).2 hlast) k hname
    have hdistinct := (changes_ascend hu).sublist hprefix.sublist
    exact isHeld_of_made hmade (hdistinct.imp fun h => ne_keyAt_of_ascends h) hmem hname
  | none =>
    refine isHeld_of_made_others hmade fun c hc hk => ?_
    have hmem := hprefix.subset hc
    obtain ⟨n, hn, hcn⟩ := isIndex_of_mem_changes hu hmem
    rw [hcn, keyAt_toString_iff hn] at hk
    rw [mem_changes, hcn, hk, hlast] at hmem
    cases hmem

/-- An update of indices is a fault exactly if one that is no key has a state. -/
theorem isSome_setKeys_iff (p : Keypad) {u : KeyUpdate} (hu : u.OnIndices) :
    (p.setKeys u).2.isSome ↔ ∃ n, 15 < n ∧ (u.lastState (toString n)).isSome := by
  have hmem := mem_changes u
  have hindex := fun c => isIndex_of_mem_changes hu (c := c)
  have hmakes := makesChanges_setKeys p u
  generalize p.setKeys u = result, u.changes = cs at hmem hindex hmakes ⊢
  cases hmakes with
  | complete hall =>
    have hnone : ¬ ∃ n, 15 < n ∧ (u.lastState (toString n)).isSome := by
      rintro ⟨n, hn, hstate⟩
      obtain ⟨pressed, hpressed⟩ := Option.isSome_iff_exists.1 hstate
      have hc : ⟨toString n, pressed⟩ ∈ cs := (hmem _).2 hpressed
      obtain ⟨m, hm, hname⟩ := hindex _ hc
      obtain rfl := Nat.repr_inj.1 hname
      obtain ⟨k, hk⟩ := keyAt_of_made hall _ hc
      have := (keyAt_toString_iff hm k).1 hk
      omega
    exact iff_of_false Bool.false_ne_true hnone
  | @refused made left c q f hmade hc =>
    have hmem' : c ∈ made ++ c :: left := List.mem_append_right _ List.mem_cons_self
    obtain ⟨n, hn, hname⟩ := hindex c hmem'
    have hlarge : 15 < n := by
      by_contra hsmall
      refine refused_of_change_eq_error hc ⟨n, by omega⟩ ?_
      rw [hname, keyAt_toString_iff hn]
    have hstate : (u.lastState (toString n)).isSome := by
      rw [← hname, (hmem c).1 hmem']
      rfl
    exact iff_of_true rfl ⟨n, hlarge, hstate⟩

theorem code_of_setKeys {p : Keypad} {u : KeyUpdate} {f : Fault} (h : (p.setKeys u).2 = some f) :
    f.code = .outOfBounds := by
  have hmakes := makesChanges_setKeys p u
  generalize p.setKeys u = result, u.changes = cs at h hmakes
  cases hmakes with
  | complete hall => cases h
  | refused hmade hc =>
    cases h
    exact code_of_change_eq_error hc

theorem settlesKeys (p : Keypad) {u : KeyUpdate} (hu : u.OnIndices) : SettlesKeys u p where
  isHeld_eq := isHeld_setKeys p hu
  isSome_iff := isSome_setKeys_iff p hu
  outOfBounds _ h := code_of_setKeys h

/-! ### The headline -/

/-- An update changes the names that end up with a state, in the order of names, up to the first
that is refused.  If all names are indices, every key gets its last state whether or not one is
refused, and the order of the entries plays no part. -/
theorem setKeys_changes (u : KeyUpdate) :
    (∀ c, c ∈ u.changes ↔ u.lastState c.name = some c.pressed) ∧
    (u.changes.Pairwise fun a b => u.Precedes a.name b.name) ∧
    (∀ p, MakesChanges p u.changes (p.setKeys u)) ∧
    (u.OnIndices → (∀ p, SettlesKeys u p) ∧
      ∀ v : KeyUpdate, v.OnIndices → (∀ name, v.lastState name = u.lastState name) →
        ∀ p : Keypad, p.setKeys v = p.setKeys u) := by
  refine ⟨mem_changes u, changes_pairwise u, fun p => makesChanges_setKeys p u, fun hu => ?_⟩
  refine ⟨fun p => settlesKeys p hu, fun v hv hstates p => ?_⟩
  rw [setKeys_eq, setKeys_eq, changes_congr hu hv hstates]

/-- Keys 3 and 10 are settled although the index 16 comes before them, also if the entries are given
in another order, and the repeated key 3 ends up released. -/
theorem setKeys_changes_reordered :
    let u : KeyUpdate := [("16", some true), ("3", some true), ("10", some true), ("3", some false)]
    let v : KeyUpdate := [("10", some true), ("3", some false), ("7", none), ("16", some true)]
    u.OnIndices ∧ v.OnIndices ∧ (∀ name, v.lastState name = u.lastState name) ∧
      released.setKeys v = released.setKeys u ∧
      (released.setKeys u).1.isHeld 10 = true ∧ (released.setKeys u).1.isHeld 3 = false ∧
      (released.setKeys u).2.isSome := by
  intro u v
  have hu : u.OnIndices := by
    simp only [u, OnIndices, List.forall_mem_cons]
    exact ⟨⟨16, by decide, by decide⟩, ⟨3, by decide, by decide⟩, ⟨10, by decide, by decide⟩,
      ⟨3, by decide, by decide⟩, fun _ h => absurd h List.not_mem_nil⟩
  have hv : v.OnIndices := by
    simp only [v, OnIndices, List.forall_mem_cons]
    exact ⟨⟨10, by decide, by decide⟩, ⟨3, by decide, by decide⟩, ⟨7, by decide, by decide⟩,
      ⟨16, by decide, by decide⟩, fun _ h => absurd h List.not_mem_nil⟩
  have hstates : ∀ name, v.lastState name = u.lastState name := by
    intro name
    simp only [u, v, lastState, List.reverse_cons, List.reverse_nil, List.nil_append,
      List.cons_append, List.lookup_cons, List.lookup_nil]
    grind
  obtain ⟨-, -, -, hindices⟩ := setKeys_changes u
  obtain ⟨hsettles, hreorder⟩ := hindices hu
  have hfinal := hsettles released
  refine ⟨hu, hv, hstates, hreorder v hv hstates released, ?_, ?_, ?_⟩
  · exact (hfinal.isHeld_eq 10).trans (by decide)
  · exact (hfinal.isHeld_eq 3).trans (by decide)
  · exact hfinal.isSome_iff.2 ⟨16, by decide, by decide⟩

end Keypad

end Chip8

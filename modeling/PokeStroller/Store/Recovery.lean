import PokeStroller.Store.Histories

/-!
# The recovery flag

One store through saves, restores and damage to its two files. The flag is set
by a restore from `previous.pws` and never cleared, so it tells where the bytes
of a restore come from only as long as no restore from `previous.pws` precedes
one from `session.pws`.
-/

namespace PokeStroller.Store

-- ---------------------------------------------------------------------------
-- Operations
-- ---------------------------------------------------------------------------

def Op.running : Op → Bool
  | .launch | .crash => false
  | _ => true

/-- What happens while one store is open; here the other file may be damaged too. -/
inductive Access
  | op (op : Op) (h : op.running = true)
  | damagePrevious (file : Option NSData)

def Access.restore : Access := .op .restore rfl

def access (os : Foundation) (identifier : String) (sys : System) : Access → System
  | .op op _ => perform os identifier sys op
  | .damagePrevious file => { sys with dir := { sys.dir with previous := file } }

def accessAll (os : Foundation) (identifier : String) (sys : System) : List Access → System
  | [] => sys
  | op :: ops => accessAll os identifier (access os identifier sys op) ops

def RestoresState (os : Foundation) (sys : System) : Prop :=
  ∃ store, sys.store = some store ∧ readState os store.identifier sys.dir.state ≠ none

def RestoresPrevious (os : Foundation) (sys : System) : Prop :=
  ∃ store, sys.store = some store ∧ readState os store.identifier sys.dir.state = none ∧
    readState os store.identifier sys.dir.previous ≠ none

/-- After a restore that returns bytes, the flag tells where they come from. -/
def Told (os : Foundation) (sys : System) : Prop :=
  ∀ store, sys.store = some store → ∀ bytes, (restore os sys.dir store).2.1 = some bytes →
    ((restore os sys.dir store).1.recoveredBackup = true ↔ RestoresPrevious os sys)

-- ---------------------------------------------------------------------------
-- The flag
-- ---------------------------------------------------------------------------

variable {os : Foundation} {identifier : String} {sys : System} {dir : Directory}
  {store next : PWSessionStore}

theorem restoresState_iff (hstore : sys.store = some store) :
    RestoresState os sys ↔ readState os store.identifier sys.dir.state ≠ none := by
  constructor
  · rintro ⟨other, hother, hread⟩
    cases hstore.symm.trans hother
    exact hread
  · intro hread
    exact ⟨store, hstore, hread⟩

theorem restoresPrevious_iff (hstore : sys.store = some store) :
    RestoresPrevious os sys ↔ readState os store.identifier sys.dir.state = none ∧
      readState os store.identifier sys.dir.previous ≠ none := by
  constructor
  · rintro ⟨other, hother, hread⟩
    cases hstore.symm.trans hother
    exact hread
  · intro hread
    exact ⟨store, hstore, hread⟩

theorem restores_of_some {bytes : List Byte} (hstore : sys.store = some store)
    (h : (restore os sys.dir store).2.1 = some bytes) :
    RestoresState os sys ∨ RestoresPrevious os sys := by
  rw [restoresState_iff hstore, restoresPrevious_iff hstore]
  have hsome : (generations os store.identifier sys.dir).recovered ≠ none := by
    rw [← restore_eq, h]
    exact Option.some_ne_none bytes
  by_cases hstate : readState os store.identifier sys.dir.state = none
  · exact .inr ⟨hstate, (recovered_ne_none.mp hsome).resolve_left (not_not.mpr hstate)⟩
  · exact .inl hstate

theorem restore_recoveredBackup (os : Foundation) (dir : Directory) (store : PWSessionStore) :
    (restore os dir store).1.recoveredBackup = true ↔ store.recoveredBackup = true ∨
      readState os store.identifier dir.state = none ∧
        readState os store.identifier dir.previous ≠ none := by
  unfold restore
  cases readState os store.identifier dir.state with
  | some bytes => simp
  | none =>
    cases readState os store.identifier dir.previous with
    | some bytes => simp
    | none =>
      dsimp only
      split <;> simp

theorem op_eq_restore {op : Op} {h : op.running = true} :
    Access.op op h = .restore ↔ op = .restore := by
  constructor
  · rintro ⟨⟩
    rfl
  · rintro rfl
    rfl

theorem access_recoveredBackup {op : Access}
    (hnext : (access os identifier sys op).store = some next) :
    ∃ store, sys.store = some store ∧ (next.recoveredBackup = true ↔
      store.recoveredBackup = true ∨ op = .restore ∧ RestoresPrevious os sys) := by
  cases op with
  | damagePrevious => exact ⟨next, hnext, by simp [Access.restore]⟩
  | op op hrunning =>
    change (perform os identifier sys op).store = some next at hnext
    cases op with
    | save calls eeprom =>
      cases hstore : sys.store with
      | none =>
        rw [perform_save_none hstore, hstore] at hnext
        cases hnext
      | some store =>
        rw [perform_save hstore] at hnext
        obtain ⟨⟨saved, result⟩, hresult, rfl⟩ := Option.map_eq_some_iff.mp hnext
        have hflag : saved.recoveredBackup = store.recoveredBackup := by
          rcases save_store hresult with rfl | ⟨-, rfl⟩
          · rfl
          · rfl
        exact ⟨store, rfl, by simp [hflag, op_eq_restore]⟩
    | restore =>
      obtain ⟨store, hstore, rfl⟩ := Option.map_eq_some_iff.mp hnext
      refine ⟨store, hstore, ?_⟩
      rw [restore_recoveredBackup, restoresPrevious_iff hstore]
      simp [op_eq_restore]
    | launch | crash => cases hrunning
    | damage => exact ⟨next, hnext, by simp [op_eq_restore]⟩

theorem accessAll_recoveredBackup {ops : List Access}
    (hnext : (accessAll os identifier sys ops).store = some next) :
    ∃ store, sys.store = some store ∧ (next.recoveredBackup = true ↔
      store.recoveredBackup = true ∨ ∃ pre mid, ops = pre ++ .restore :: mid ∧
        RestoresPrevious os (accessAll os identifier sys pre)) := by
  induction ops generalizing sys with
  | nil => exact ⟨next, hnext, by simp⟩
  | cons op ops ih =>
    obtain ⟨middle, hmiddle, hlater⟩ := ih hnext
    obtain ⟨store, hstore, hfirst⟩ := access_recoveredBackup hmiddle
    refine ⟨store, hstore, ?_⟩
    rw [hlater, hfirst]
    constructor
    · rintro ((hflag | ⟨rfl, hprevious⟩) | ⟨pre, mid, rfl, hprevious⟩)
      · exact .inl hflag
      · exact .inr ⟨[], ops, rfl, hprevious⟩
      · exact .inr ⟨op :: pre, mid, rfl, hprevious⟩
    · rintro (hflag | ⟨pre, mid, hops, hprevious⟩)
      · exact .inl (.inl hflag)
      · cases pre with
        | nil =>
          obtain ⟨rfl, rfl⟩ := List.cons_eq_cons.mp hops
          exact .inl (.inr ⟨rfl, hprevious⟩)
        | cons first pre =>
          obtain ⟨rfl, rfl⟩ := List.cons_eq_cons.mp hops
          exact .inr ⟨pre, mid, rfl, hprevious⟩

-- ---------------------------------------------------------------------------
-- Histories
-- ---------------------------------------------------------------------------

theorem initWithRoot_recoveredBackup {store : PWSessionStore}
    (hinit : initWithRoot identifier = .ok store) : store.recoveredBackup = false := by
  unfold initWithRoot at hinit
  split at hinit
  · cases hinit
    rfl
  · cases hinit

theorem recoveredBackup_of_new {store now : PWSessionStore} (hnew : store.recoveredBackup = false)
    (hnow : (accessAll os identifier { dir, store := some store } ops).store = some now) :
    now.recoveredBackup = true ↔ ∃ pre mid, ops = pre ++ .restore :: mid ∧
      RestoresPrevious os (accessAll os identifier { dir, store := some store } pre) := by
  obtain ⟨first, hfirst, hiff⟩ := accessAll_recoveredBackup hnow
  cases hfirst
  rw [hiff, hnew]
  simp

/-- In any history of a new store, the flag tells the truth after every restore
that returns bytes exactly if none from `session.pws` comes after one from
`previous.pws`. -/
theorem recoveredBackup_iff (os : Foundation) (identifier : String) (dir : Directory)
    (store : PWSessionStore) (hinit : initWithRoot identifier = .ok store) (ops : List Access) :
    let sys : System := { dir, store := some store }
    (∀ pre, pre ++ [.restore] <+: ops → Told os (accessAll os identifier sys pre)) ↔
    ∀ pre mid, pre ++ .restore :: mid ++ [.restore] <+: ops →
      RestoresPrevious os (accessAll os identifier sys pre) →
      ¬ RestoresState os (accessAll os identifier sys (pre ++ .restore :: mid)) := by
  intro sys
  have hnew := initWithRoot_recoveredBackup hinit
  constructor
  · intro htold pre mid hprefix hprevious hstate
    obtain ⟨now, hnow, hread⟩ := hstate
    have hset : now.recoveredBackup = true :=
      (recoveredBackup_of_new hnew hnow).mpr ⟨pre, mid, rfl, hprevious⟩
    obtain ⟨bytes, hbytes⟩ := Option.ne_none_iff_exists'.mp hread
    have hreturns := congrArg (·.2.1) (restore_of_state hbytes)
    have hiff := htold _ hprefix now hnow bytes hreturns
    rw [restore_recoveredBackup, restoresPrevious_iff hnow] at hiff
    exact hread (hiff.mp (.inl hset)).1
  · intro hcondition pre hprefix now hnow bytes hbytes
    rw [restore_recoveredBackup, restoresPrevious_iff hnow]
    refine ⟨fun h => ?_, .inr⟩
    rcases h with hset | hprevious
    · obtain ⟨before, mid, rfl, hbefore⟩ := (recoveredBackup_of_new hnew hnow).mp hset
      have hnot := hcondition before mid hprefix hbefore
      exact (restoresPrevious_iff hnow).mp ((restores_of_some hnow hbytes).resolve_left hnot)
    · exact hprevious

def unreadable : NSData := { length := 7, propertyList := none }

def damaging : Access := .op (.damage (some unreadable)) rfl

def damagedDirectory : Directory := { exampleDirectory with state := some unreadable }

theorem restore_damaged : restore exampleFoundation damagedDirectory exampleStore =
    ({ exampleStore with recoveredBackup := true }, some (filled 0), none) := by
  have hstate : readState exampleFoundation exampleStore.identifier damagedDirectory.state =
      none := rfl
  have hprevious : readState exampleFoundation exampleStore.identifier damagedDirectory.previous =
      some (filled 0) := readState_example 0 0
  exact restore_of_previous hstate hprevious

/-- `session.pws` is damaged, and the copy is restored. -/
theorem recoveredBackup_iff_damaged :
    (restore exampleFoundation damagedDirectory exampleStore).1.recoveredBackup = true ∧
      Told exampleFoundation { dir := damagedDirectory, store := some exampleStore } := by
  refine ⟨by rw [restore_damaged], ?_⟩
  refine (recoveredBackup_iff exampleFoundation exampleIdentifier exampleDirectory exampleStore
    initWithRoot_example [damaging, .restore]).mpr ?_ [damaging]
      (List.prefix_refl _)
  intro pre mid hprefix
  have hlength := hprefix.length_le
  simp only [List.length_append, List.length_cons, List.length_nil] at hlength
  obtain rfl : pre = [] := List.length_eq_zero_iff.mp (by omega)
  obtain rfl : mid = [] := List.length_eq_zero_iff.mp (by omega)
  cases (List.cons_prefix_cons.mp hprefix).1

/-- `session.pws` is damaged, its copy is restored, other bytes are saved, and a
restore returns them from `session.pws`: the flag is still set. -/
theorem recoveredBackup_stale :
    let sys := accessAll exampleFoundation exampleIdentifier
      { dir := exampleDirectory, store := some exampleStore }
      [damaging, .restore, .op (.save {} (filled 1)) rfl]
    ∃ store, sys.store = some store ∧
      (restore exampleFoundation sys.dir store).2.1 = some (filled 1) ∧
      RestoresState exampleFoundation sys ∧ ¬ RestoresPrevious exampleFoundation sys ∧
      (restore exampleFoundation sys.dir store).1.recoveredBackup = true := by
  intro sys
  let recovered : PWSessionStore := { exampleStore with recoveredBackup := true }
  let saved : PWSessionStore := { recovered with lastSaved := some (filled 1) }
  let dir := replaced exampleFoundation {} (filled 1) damagedDirectory exampleIdentifier
  have hyes : Replaces exampleFoundation {} (filled 1) damagedDirectory recovered :=
    ⟨length_filled 1, Option.some_ne_none _, rfl, fun _ => ⟨rfl, rfl⟩, rfl⟩
  have hsys : sys = { dir := dir, store := some saved } := by
    have hrestored : access exampleFoundation exampleIdentifier
        { dir := damagedDirectory, store := some exampleStore } .restore =
          { dir := damagedDirectory, store := some recovered } := by
      change perform _ exampleIdentifier _ .restore = _
      rw [perform_restore, restore_damaged]
    change perform _ exampleIdentifier
      (access _ _ { dir := damagedDirectory, store := some exampleStore } .restore)
        (.save {} (filled 1)) = _
    rw [hrestored, perform_save rfl, save_of_done hyes rfl rfl]
    rfl
  have hread : readState exampleFoundation saved.identifier dir.state = some (filled 1) :=
    readState_example 1 0
  rw [hsys]
  refine ⟨saved, rfl, ?_, ⟨saved, rfl, ?_⟩, ?_, ?_⟩
  · change (restore exampleFoundation dir saved).2.1 = _
    rw [restore_of_state hread]
  · rw [hread]
    exact Option.some_ne_none _
  · rw [restoresPrevious_iff rfl, hread]
    exact fun h => Option.some_ne_none _ h.1
  · change (restore exampleFoundation dir saved).1.recoveredBackup = true
    rw [restore_of_state hread]

end PokeStroller.Store

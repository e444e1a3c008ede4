import PokeStroller.Store.Saves

/-!
# Histories of a session

Any number of saves and restores, of which each may fail or be cut short by a
crash. No save loses the only readable file; but a save that fails after it
has replaced `session.pws` leaves a store that may report the next one falsely.
-/

namespace PokeStroller.Store

-- ---------------------------------------------------------------------------
-- Operations
-- ---------------------------------------------------------------------------

structure System where
  dir : Directory
  store : Option PWSessionStore

inductive Op
  | save (calls : SaveCalls) (eeprom : List Byte)
  | restore
  /-- A fresh store is opened. -/
  | launch
  | crash
  /-- `session.pws` becomes another file, or none. -/
  | damage (file : Option NSData)

def Op.isDamage : Op → Bool
  | damage _ => true
  | _ => false

/-- One operation in the directory of a session; without a store, calls do not
happen. -/
def perform (os : Foundation) (identifier : String) (sys : System) : Op → System
  | .save calls eeprom =>
    match sys.store with
    | none => sys
    | some store =>
      let saved := save os calls eeprom sys.dir store
      { dir := saved.dir, store := saved.result.map Prod.fst }
  | .restore => { sys with store := sys.store.map fun store => (restore os sys.dir store).1 }
  | .launch => { sys with store := (initWithRoot identifier).toOption }
  | .crash => { sys with store := none }
  | .damage file => { sys with dir := { sys.dir with state := file } }

def performAll (os : Foundation) (identifier : String) (sys : System) : List Op → System
  | [] => sys
  | op :: ops => performAll os identifier (perform os identifier sys op) ops

def System.initial (dir : Directory) : System := { dir, store := none }

-- ---------------------------------------------------------------------------
-- The store of a history
-- ---------------------------------------------------------------------------

/-- The store of a history is one of its session, and what it last saved has
the size of an EEPROM. -/
structure System.Valid (identifier : String) (sys : System) : Prop where
  identifier : ∀ store, sys.store = some store → store.identifier = identifier
  length : ∀ store, sys.store = some store → ∀ bytes, store.lastSaved = some bytes →
    bytes.length = 65536

variable {os : Foundation} {calls : SaveCalls} {eeprom : List Byte} {dir : Directory}
  {store fresh : PWSessionStore} {identifier : String} {sys : System}

theorem initWithRoot_eq (h : initWithRoot identifier = .ok fresh) :
    fresh.identifier = identifier ∧ fresh.lastSaved = none := by
  unfold initWithRoot at h
  split at h
  · cases h
    exact ⟨rfl, rfl⟩
  · cases h

theorem initWithRoot_toOption (h : (initWithRoot identifier).toOption = some fresh) :
    initWithRoot identifier = .ok fresh := by
  cases hinit : initWithRoot identifier with
  | ok store =>
    rw [hinit] at h
    cases h
    rfl
  | error =>
    rw [hinit] at h
    cases h

theorem valid_initial (identifier : String) (dir : Directory) :
    (System.initial dir).Valid identifier where
  identifier _ := nofun
  length _ := nofun

theorem restore_store (os : Foundation) (dir : Directory) (store : PWSessionStore) :
    (restore os dir store).1.identifier = store.identifier ∧
      ∀ bytes, (restore os dir store).1.lastSaved = some bytes →
        store.lastSaved = some bytes ∨ readState os store.identifier dir.state = some bytes := by
  unfold restore
  cases hread : readState os store.identifier dir.state with
  | some bytes => exact ⟨rfl, fun _ h => .inr h⟩
  | none =>
    cases readState os store.identifier dir.previous with
    | some bytes => exact ⟨rfl, nofun⟩
    | none =>
      dsimp only
      split
      · exact ⟨rfl, fun _ h => .inl h⟩
      · exact ⟨rfl, fun _ h => .inl h⟩

theorem save_store {next : PWSessionStore} {result : Except StoreError Unit}
    (h : (save os calls eeprom dir store).result = some (next, result)) :
    next = store ∨ eeprom.length = 65536 ∧ next = { store with lastSaved := some eeprom } := by
  have hsaves := saves os calls eeprom dir store
  generalize save os calls eeprom dir store = saved at h hsaves
  cases hsaves with
  | refused _ _ hstop => exact .inl (hstop.store_eq h)
  | unchanged =>
    cases h
    exact .inl rfl
  | copied _ _ _ hstop => exact .inl (hstop.store_eq h)
  | unsynchronised =>
    cases h
    exact .inl rfl
  | cut => cases h
  | written hyes =>
    cases h
    exact .inr ⟨hyes.1, rfl⟩

theorem perform_save (hstore : sys.store = some store) :
    perform os identifier sys (.save calls eeprom) =
      { dir := (save os calls eeprom sys.dir store).dir
        store := (save os calls eeprom sys.dir store).result.map Prod.fst } := by
  simp [perform, hstore]

theorem perform_save_none (hstore : sys.store = none) :
    perform os identifier sys (.save calls eeprom) = sys := by
  simp [perform, hstore]

theorem perform_restore (os : Foundation) (identifier : String) (dir : Directory)
    (store : PWSessionStore) :
    perform os identifier { dir, store := some store } .restore =
      { dir, store := some (restore os dir store).1 } := rfl

theorem System.Valid.perform (h : sys.Valid identifier) (op : Op) :
    (perform os identifier sys op).Valid identifier := by
  cases op with
  | save calls eeprom =>
    cases hstore : sys.store with
    | none =>
      rw [perform_save_none hstore]
      exact h
    | some store =>
      rw [perform_save hstore]
      refine ⟨fun next hnext => ?_, fun next hnext bytes hbytes => ?_⟩
      · obtain ⟨⟨saved, result⟩, hresult, rfl⟩ := Option.map_eq_some_iff.mp hnext
        have hid := h.identifier store hstore
        rcases save_store hresult with rfl | ⟨-, rfl⟩
        · exact hid
        · exact hid
      · obtain ⟨⟨saved, result⟩, hresult, rfl⟩ := Option.map_eq_some_iff.mp hnext
        rcases save_store hresult with rfl | ⟨heeprom, rfl⟩
        · exact h.length saved hstore bytes hbytes
        · cases hbytes
          exact heeprom
  | restore =>
    refine ⟨fun next hnext => ?_, fun next hnext bytes hbytes => ?_⟩
    · obtain ⟨store, hstore, rfl⟩ := Option.map_eq_some_iff.mp hnext
      exact (restore_store os sys.dir store).1.trans (h.identifier store hstore)
    · obtain ⟨store, hstore, rfl⟩ := Option.map_eq_some_iff.mp hnext
      rcases (restore_store os sys.dir store).2 bytes hbytes with hsaved | hread
      · exact h.length store hstore bytes hsaved
      · exact length_of_readState hread
  | launch =>
    refine ⟨fun next hnext => ?_, fun next hnext bytes hbytes => ?_⟩
    · exact (initWithRoot_eq (initWithRoot_toOption hnext)).1
    · rw [(initWithRoot_eq (initWithRoot_toOption hnext)).2] at hbytes
      cases hbytes
  | crash => exact ⟨nofun, nofun⟩
  | damage => exact ⟨h.identifier, h.length⟩

theorem System.Valid.performAll (h : sys.Valid identifier) (ops : List Op) :
    (performAll os identifier sys ops).Valid identifier := by
  induction ops generalizing sys with
  | nil => exact h
  | cons op ops ih => exact ih (h.perform op)

-- ---------------------------------------------------------------------------
-- A session
-- ---------------------------------------------------------------------------

@[irreducible] def filled (byte : Byte) : List Byte := List.replicate 65536 byte

theorem length_filled (byte : Byte) : (filled byte).length = 65536 := by
  unfold filled
  exact List.length_replicate

/-- The digests of `filled 0` and `filled 1`, and the length of a container of
a valid identifier. -/
def exampleFoundation : Foundation where
  digest bytes :=
    if bytes.head? = some 0 then
      "de2f256064a0af797747c2b97505dc0b9f3df0de4f489eac731c23ae9ca9cc31"
    else "916b144867c340614f515c7b0e5415c74832d899c05264ded2a277a6e81d81ff"
  length container := 285 + (container.eeprom.getD []).length
  length_le := by
    intro identifier eeprom date _ heeprom
    simp [sessionContainer, heeprom]

def exampleIdentifier : String := String.ofList (List.replicate 64 'a')

theorem validIdentifier_example : validIdentifier exampleIdentifier = true := by
  have hdigits : (List.replicate 64 'a').all ("0123456789abcdef".toList.contains ·) = true := by
    refine List.all_eq_true.mpr fun c hc => ?_
    rw [List.eq_of_mem_replicate hc]
    decide
  unfold validIdentifier exampleIdentifier
  rw [String.length_ofList, String.toList_ofList, hdigits, List.length_replicate]
  rfl

def exampleStore : PWSessionStore :=
  { identifier := exampleIdentifier, identifier_valid := validIdentifier_example }

theorem initWithRoot_example : initWithRoot exampleIdentifier = .ok exampleStore :=
  dif_pos validIdentifier_example

theorem perform_launch_example (os : Foundation) (sys : System) :
    perform os exampleIdentifier sys .launch = { sys with store := some exampleStore } := by
  unfold perform
  rw [initWithRoot_example]
  rfl

theorem filled_ne : filled 1 ≠ filled 0 := by
  intro h
  have hhead := congrArg List.head? h
  unfold filled at hhead
  rw [List.head?_replicate, List.head?_replicate] at hhead
  simp at hhead

def exampleDirectory : Directory :=
  let file := exampleFoundation.dataWithPropertyList
    (sessionContainer exampleFoundation.digest exampleIdentifier (filled 0) 0)
  { state := some file, previous := some file }

theorem readState_example (byte : Byte) (date : Nat) :
    readState exampleFoundation exampleIdentifier (some (exampleFoundation.dataWithPropertyList
      (sessionContainer exampleFoundation.digest exampleIdentifier (filled byte) date))) =
        some (filled byte) :=
  readState_saved date validIdentifier_example (length_filled byte)

theorem readState_exampleDirectory :
    readState exampleFoundation exampleStore.identifier exampleDirectory.state =
      some (filled 0) := by
  exact readState_example 0 0

theorem restore_example : (restore exampleFoundation exampleDirectory exampleStore).1 =
    { exampleStore with lastSaved := some (filled 0) } := by
  rw [restore_of_state (readState_exampleDirectory)]

-- ---------------------------------------------------------------------------
-- Crashes
-- ---------------------------------------------------------------------------

def Readable (os : Foundation) (identifier : String) (dir : Directory) : Prop :=
  readState os identifier dir.state ≠ none ∨ readState os identifier dir.previous ≠ none

/-- At any point of any history, in a save that may fail or be cut short by a
crash anywhere: a readable file is never lost; after a save that wrote and
returned YES the new bytes are in `session.pws` and what was readable there is
the backup; and a fresh store restores the new bytes, or what it would have
restored before the save. -/
theorem save_crash_safe (os : Foundation) (identifier : String) (dir : Directory)
    (ops : List Op) (sys : System) (store : PWSessionStore) (calls : SaveCalls)
    (eeprom : List Byte) (hrun : performAll os identifier (.initial dir) ops = sys)
    (hstore : sys.store = some store) :
    let saved := save os calls eeprom sys.dir store
    (Readable os identifier sys.dir →
      Readable os identifier saved.dir ∧
        ∀ next : PWSessionStore, next.identifier = identifier →
          (restore os saved.dir next).2.1 ≠ none) ∧
    (∀ next, saved.result = some (next, .ok ()) → store.lastSaved ≠ some eeprom →
      readState os identifier saved.dir.state = some eeprom ∧
        saved.dir.previous =
          if readState os identifier sys.dir.state = none then sys.dir.previous
          else sys.dir.state) ∧
    ∀ fresh, initWithRoot identifier = .ok fresh →
      (restore os saved.dir fresh).2.1 = some eeprom ∨
        (restore os saved.dir fresh).2.1 = (restore os sys.dir fresh).2.1 := by
  have hid : store.identifier = identifier := by
    rw [← hrun] at hstore
    exact ((valid_initial identifier dir).performAll ops).identifier store hstore
  have hupdate := save_update os calls eeprom sys.dir store
  rw [hid] at hupdate
  refine ⟨fun hread => ?_, fun next hresult hnew => ?_, fun fresh hfresh => ?_⟩
  · have hsome := hupdate.recovered_ne_none (recovered_ne_none.mpr hread)
    refine ⟨recovered_ne_none.mp hsome, fun next hnext => ?_⟩
    rw [restore_eq, hnext]
    exact hsome
  · rw [← hid]
    exact save_written hresult hnew
  · rw [restore_eq, restore_eq, (initWithRoot_eq hfresh).1]
    exact hupdate.recovered_eq

/-- `session.pws` is damaged, and the process dies in the next save. -/
theorem save_crash_safe_damaged :
    let damaged : Directory :=
      { exampleDirectory with state := some { length := 3, propertyList := none } }
    (restore exampleFoundation (save exampleFoundation { writeState := .crashed } (filled 1)
      damaged exampleStore).dir exampleStore).2.1 ≠ none := by
  intro damaged
  have hrun : performAll exampleFoundation exampleIdentifier (.initial exampleDirectory)
      [.launch, .damage damaged.state] = { dir := damaged, store := some exampleStore } := by
    unfold performAll
    rw [perform_launch_example]
    rfl
  have hsafe := save_crash_safe exampleFoundation exampleIdentifier exampleDirectory _ _
    exampleStore { writeState := .crashed } (filled 1) hrun rfl
  have hread : readState exampleFoundation exampleIdentifier damaged.previous ≠ none := by
    rw [show damaged.previous = exampleDirectory.previous from rfl, exampleDirectory]
    simp [readState_example]
  exact (hsafe.1 (.inr hread)).2 exampleStore rfl

-- ---------------------------------------------------------------------------
-- Reported saves
-- ---------------------------------------------------------------------------

/-- What a save that returns YES was given is what a restore finds, on the same
store or on a fresh one. -/
def Truthful (os : Foundation) (identifier : String) (sys : System) : Prop :=
  ∀ store, sys.store = some store → ∀ calls eeprom next,
    (save os calls eeprom sys.dir store).result = some (next, .ok ()) →
    (restore os (save os calls eeprom sys.dir store).dir next).2.1 = some eeprom ∧
    ∀ fresh, initWithRoot identifier = .ok fresh →
      (restore os (save os calls eeprom sys.dir store).dir fresh).2.1 = some eeprom

/-- A save that replaces `session.pws` and fails after it, in a store that
remembers other bytes. -/
def Desynchronises (os : Foundation) (sys : System) : Op → Prop
  | .save calls eeprom => ∃ store, sys.store = some store ∧ store.lastSaved ≠ none ∧
      Replaces os calls eeprom sys.dir store ∧ calls.SyncFails
  | _ => False

def System.Current (os : Foundation) (sys : System) : Prop :=
  ∀ store, sys.store = some store → ∀ bytes, store.lastSaved = some bytes →
    readState os store.identifier sys.dir.state = some bytes

theorem current_save {next : PWSessionStore} {result : Except StoreError Unit} {bytes : List Byte}
    (h : ∀ bytes, store.lastSaved = some bytes →
      readState os store.identifier dir.state = some bytes)
    (hsync : store.lastSaved ≠ none → ¬ (Replaces os calls eeprom dir store ∧ calls.SyncFails))
    (hresult : (save os calls eeprom dir store).result = some (next, result))
    (hbytes : next.lastSaved = some bytes) :
    readState os next.identifier (save os calls eeprom dir store).dir.state = some bytes := by
  have hsaves := saves os calls eeprom dir store
  generalize save os calls eeprom dir store = saved at hresult hsaves ⊢
  cases hsaves with
  | refused _ hdir hstop =>
    obtain rfl := hstop.store_eq hresult
    rw [hdir]
    exact h bytes hbytes
  | unchanged =>
    cases hresult
    exact h bytes hbytes
  | copied _ _ hdir hstop =>
    obtain rfl := hstop.store_eq hresult
    rw [hdir]
    exact h bytes hbytes
  | unsynchronised hyes hfails =>
    cases hresult
    exact absurd ⟨hyes, hfails⟩ (hsync (by simp [hbytes]))
  | cut => cases hresult
  | written hyes =>
    cases hresult
    cases hbytes
    exact readState_saved _ store.identifier_valid hyes.1

theorem System.Current.perform (h : sys.Current os) {op : Op} (hop : op.isDamage = false)
    (hsync : ¬ Desynchronises os sys op) : (perform os identifier sys op).Current os := by
  cases op with
  | save calls eeprom =>
    cases hstore : sys.store with
    | none =>
      rw [perform_save_none hstore]
      exact h
    | some store =>
      rw [perform_save hstore]
      intro next hnext bytes hbytes
      obtain ⟨⟨saved, result⟩, hresult, rfl⟩ := Option.map_eq_some_iff.mp hnext
      refine current_save (h store hstore) (fun hlast hfails => ?_) hresult hbytes
      exact hsync ⟨store, hstore, hlast, hfails⟩
  | restore =>
    intro next hnext bytes hbytes
    obtain ⟨store, hstore, rfl⟩ := Option.map_eq_some_iff.mp hnext
    obtain ⟨hid, hlast⟩ := restore_store os sys.dir store
    rw [hid]
    rcases hlast bytes hbytes with hsaved | hread
    · exact h store hstore bytes hsaved
    · exact hread
  | launch =>
    intro next hnext bytes hbytes
    rw [(initWithRoot_eq (initWithRoot_toOption hnext)).2] at hbytes
    cases hbytes
  | crash => exact fun _ => nofun
  | damage => cases hop

theorem System.Current.truthful (h : sys.Current os) (hvalid : sys.Valid identifier) :
    Truthful os identifier sys := by
  intro store hstore calls eeprom next hresult
  have hread : readState os store.identifier
      (save os calls eeprom sys.dir store).dir.state = some eeprom := by
    by_cases hnew : store.lastSaved = some eeprom
    case neg => exact (save_written hresult hnew).1
    rw [save_of_lastSaved calls sys.dir hnew (hvalid.length store hstore eeprom hnew)]
    exact h store hstore eeprom hnew
  have hfound (st : PWSessionStore) (hid : st.identifier = store.identifier) :
      (restore os (save os calls eeprom sys.dir store).dir st).2.1 = some eeprom := by
    rw [restore_eq, hid]
    simp [generations, Generations.recovered, hread]
  refine ⟨hfound next ?_, fun fresh hfresh => hfound fresh ?_⟩
  · rcases save_store hresult with rfl | ⟨-, rfl⟩
    · rfl
    · rfl
  · exact (initWithRoot_eq hfresh).1.trans (hvalid.identifier store hstore).symm

theorem Desynchronises.not_truthful {op : Op} (hvalid : sys.Valid identifier)
    (hop : Desynchronises os sys op) : ¬ Truthful os identifier (perform os identifier sys op) := by
  cases op with
  | save calls eeprom =>
    obtain ⟨store, hstore, hlast, hyes, hfails⟩ := hop
    obtain ⟨bytes, hbytes⟩ := Option.ne_none_iff_exists'.mp hlast
    intro htrue
    have hsys : perform os identifier sys (.save calls eeprom) =
        { dir := replaced os calls eeprom sys.dir store.identifier, store := some store } := by
      rw [perform_save hstore, save_of_syncFails hyes hfails]
      rfl
    rw [hsys] at htrue
    have hlength := hvalid.length store hstore bytes hbytes
    have hshort : save os {} bytes (replaced os calls eeprom sys.dir store.identifier) store =
        { dir := replaced os calls eeprom sys.dir store.identifier
          result := some (store, .ok ()) } := save_of_lastSaved _ _ hbytes hlength
    obtain ⟨hsame, -⟩ := htrue store rfl {} bytes store (by rw [hshort])
    rw [hshort, restore_eq, generations_replaced hyes.1] at hsame
    cases hsame
    exact hyes.2.1 hbytes.symm
  | _ => exact hop.elim

theorem performAll_append (os : Foundation) (identifier : String) (sys : System)
    (pre ops : List Op) : performAll os identifier sys (pre ++ ops) =
      performAll os identifier (performAll os identifier sys pre) ops := by
  induction pre generalizing sys with
  | nil => rfl
  | cons op pre ih => exact ih _

theorem System.Current.performAll (h : sys.Current os) {ops : List Op}
    (hops : ∀ op ∈ ops, op.isDamage = false)
    (hsync : ∀ pre op, pre ++ [op] <+: ops →
      ¬ Desynchronises os (performAll os identifier sys pre) op) :
    (performAll os identifier sys ops).Current os := by
  induction ops generalizing sys with
  | nil => exact h
  | cons op ops ih =>
    have hfirst : ¬ Desynchronises os sys op := hsync [] op ⟨ops, rfl⟩
    refine ih (h.perform (hops op List.mem_cons_self) hfirst) ?_ ?_
    · intro later hlater
      exact hops later (List.mem_cons_of_mem _ hlater)
    · intro pre later hpre
      exact hsync (op :: pre) later ((List.prefix_cons_inj op).mpr hpre)

/-- While nobody else changes the files, every save that returns YES is the one
a restore finds, at every point of a history and whatever save comes next,
exactly if no save in it fails after it has replaced `session.pws` in a store
that remembers other bytes. -/
theorem reported_save_iff (os : Foundation) (identifier : String) (dir : Directory)
    (ops : List Op) (hops : ∀ op ∈ ops, op.isDamage = false) :
    (∀ pre, pre <+: ops →
      Truthful os identifier (performAll os identifier (.initial dir) pre)) ↔
    ∀ pre op, pre ++ [op] <+: ops →
      ¬ Desynchronises os (performAll os identifier (.initial dir) pre) op := by
  have hvalid (pre : List Op) :
      (performAll os identifier (.initial dir) pre).Valid identifier :=
    (valid_initial identifier dir).performAll pre
  refine ⟨fun htrue pre op hpre hop => ?_, fun hsync pre hpre => ?_⟩
  · refine hop.not_truthful (hvalid pre) ?_
    have hnext := htrue _ hpre
    rwa [performAll_append] at hnext
  · have hstart : (System.initial dir).Current os := fun _ => nofun
    refine System.Current.truthful (hstart.performAll ?_ ?_) (hvalid pre)
    · exact fun op hop => hops op (hpre.subset hop)
    · exact fun before op hbefore => hsync before op (hbefore.trans hpre)

/-- A failed save in a store that remembers nothing. -/
theorem reported_save_iff_fresh :
    Truthful exampleFoundation exampleIdentifier (performAll exampleFoundation exampleIdentifier
      (.initial exampleDirectory) [.launch, .save { fsync := .failed } (filled 1)]) := by
  refine (reported_save_iff exampleFoundation exampleIdentifier exampleDirectory
    [.launch, .save { fsync := .failed } (filled 1)] (by simp [Op.isDamage])).mpr ?_ _
      (List.prefix_refl _)
  rintro (_ | ⟨first, _ | ⟨second, pre⟩⟩) op hpre
  · simp at hpre
    subst hpre
    exact id
  · simp at hpre
    obtain ⟨rfl, rfl⟩ := hpre
    rintro ⟨store, hstore, hlast, -⟩
    unfold performAll at hstore
    rw [perform_launch_example] at hstore
    cases hstore
    exact hlast rfl
  · have hlength := hpre.length_le
    simp at hlength

/-- A session is restored, a save of other bytes is not synchronised, and a save
of the first bytes returns YES; a restore finds the other bytes. -/
theorem reported_save_stale :
    let sys := performAll exampleFoundation exampleIdentifier (.initial exampleDirectory)
      [.launch, .restore, .save { fsync := .failed } (filled 1)]
    ∃ store, sys.store = some store ∧
      (save exampleFoundation {} (filled 0) sys.dir store).result = some (store, .ok ()) ∧
      (restore exampleFoundation (save exampleFoundation {} (filled 0) sys.dir store).dir
        store).2.1 = some (filled 1) ∧
      filled 1 ≠ filled 0 := by
  intro sys
  let store : PWSessionStore := { exampleStore with lastSaved := some (filled 0) }
  let calls : SaveCalls := { fsync := .failed }
  let dir := replaced exampleFoundation calls (filled 1) exampleDirectory exampleIdentifier
  have hyes : Replaces exampleFoundation calls (filled 1) exampleDirectory store :=
    ⟨length_filled 1, fun h => filled_ne (Option.some.inj h), rfl, fun _ => ⟨rfl, rfl⟩, rfl⟩
  have hsys : sys = { dir := dir, store := some store } := by
    unfold sys
    simp only [performAll, perform_launch_example, System.initial]
    rw [perform_restore, restore_example, perform_save rfl,
      save_of_syncFails hyes (.inr ⟨rfl, rfl⟩)]
    rfl
  have hshort : save exampleFoundation {} (filled 0) dir store =
      { dir := dir, result := some (store, .ok ()) } :=
    save_of_lastSaved _ _ rfl (length_filled 0)
  rw [hsys]
  refine ⟨store, rfl, by rw [hshort], ?_, filled_ne⟩
  rw [hshort, restore_eq]
  change (generations _ store.identifier (replaced _ _ _ _ store.identifier)).recovered = _
  rw [generations_replaced hyes.1]
  rfl

end PokeStroller.Store

import PokeStroller.Lib.Generations
import PokeStroller.Store.Model

/-!
# Saving a session

The files of a session are two generations of the saved bytes, and a save
updates them, wherever it stops.
-/

namespace PokeStroller.Store

variable {os : Foundation} {calls : SaveCalls} {eeprom : List Byte} {dir : Directory}
  {store : PWSessionStore} {identifier : String}

-- ---------------------------------------------------------------------------
-- Reading
-- ---------------------------------------------------------------------------

theorem length_of_readState {file : Option NSData} {bytes : List Byte}
    (h : readState os identifier file = some bytes) : bytes.length = 65536 := by
  unfold readState at h
  repeat' split at h
  all_goals simp only [Option.some.injEq, reduceCtorEq] at h
  rename_i hvalid
  simp only [not_or, not_not] at hvalid
  rw [← h]
  exact hvalid.2.2.1

theorem readState_saved (date : Nat) (hid : validIdentifier identifier = true)
    (heeprom : eeprom.length = 65536) :
    readState os identifier (some (os.dataWithPropertyList
      (sessionContainer os.digest identifier eeprom date))) = some eeprom := by
  have hlength : identifier.length = 64 := by
    simp only [validIdentifier, Bool.and_eq_true, decide_eq_true_eq] at hid
    exact hid.1
  have hfits := os.length_le identifier eeprom date hlength heeprom
  simpa [readState, Foundation.dataWithPropertyList, sessionContainer, heeprom] using hfits

def generations (os : Foundation) (identifier : String) (dir : Directory) :
    Generations (List Byte) :=
  { current := readState os identifier dir.state
    backup := readState os identifier dir.previous }

theorem restore_of_state {bytes : List Byte}
    (h : readState os store.identifier dir.state = some bytes) :
    restore os dir store = ({ store with lastSaved := some bytes }, some bytes, none) := by
  unfold restore
  rw [h]

theorem restore_of_previous {bytes : List Byte}
    (hstate : readState os store.identifier dir.state = none)
    (h : readState os store.identifier dir.previous = some bytes) :
    restore os dir store =
      ({ store with lastSaved := none, recoveredBackup := true }, some bytes, none) := by
  unfold restore
  rw [hstate, h]

theorem restore_eq (os : Foundation) (dir : Directory) (store : PWSessionStore) :
    (restore os dir store).2.1 = (generations os store.identifier dir).recovered := by
  unfold restore generations Generations.recovered
  cases readState os store.identifier dir.state with
  | some bytes => rfl
  | none =>
    cases readState os store.identifier dir.previous with
    | some bytes => rfl
    | none => by_cases hfile : (dir.state.isSome || dir.previous.isSome) = true <;> simp [hfile]

theorem recovered_ne_none :
    (generations os identifier dir).recovered ≠ none ↔
      readState os identifier dir.state ≠ none ∨ readState os identifier dir.previous ≠ none := by
  unfold generations Generations.recovered
  cases readState os identifier dir.state <;> simp

-- ---------------------------------------------------------------------------
-- Saving
-- ---------------------------------------------------------------------------

/-- Nothing fails up to the replacement of `session.pws`. -/
def Replaces (os : Foundation) (calls : SaveCalls) (eeprom : List Byte) (dir : Directory)
    (store : PWSessionStore) : Prop :=
  eeprom.length = 65536 ∧ some eeprom ≠ store.lastSaved ∧ calls.dataWithPropertyList = .done ∧
    (readState os store.identifier dir.state ≠ none →
      calls.dataWithContentsOfURL = .done ∧ calls.writePrevious = .done) ∧
    calls.writeState = .done

def SaveCalls.SyncFails (calls : SaveCalls) : Prop :=
  calls.openFile = .failed ∨ calls.openFile = .done ∧ calls.fsync = .failed

def backup (os : Foundation) (identifier : String) (dir : Directory) : Option NSData :=
  match readState os identifier dir.state with
  | some _ => dir.state
  | none => dir.previous

def replaced (os : Foundation) (calls : SaveCalls) (eeprom : List Byte) (dir : Directory)
    (identifier : String) : Directory :=
  { state := some (os.dataWithPropertyList
      (sessionContainer os.digest identifier eeprom calls.date))
    previous := backup os identifier dir }

/-- The call returned NO, or did not return. -/
def Saved.Stopped (saved : Saved) (store : PWSessionStore) : Prop :=
  saved.result = none ∨ ∃ error, saved.result = some (store, .error error)

theorem Saved.Stopped.store_eq {saved : Saved} {next : PWSessionStore}
    {result : Except StoreError Unit} (h : saved.Stopped store)
    (hresult : saved.result = some (next, result)) : next = store := by
  rcases h with hnone | ⟨error, herror⟩
  · rw [hnone] at hresult
    cases hresult
  · rw [herror] at hresult
    cases hresult
    rfl

theorem Saved.Stopped.not_ok {saved : Saved} {next : PWSessionStore} (h : saved.Stopped store) :
    saved.result ≠ some (next, .ok ()) := by
  intro hresult
  rcases h with hnone | ⟨error, herror⟩
  · rw [hnone] at hresult
    cases hresult
  · rw [herror] at hresult
    cases hresult

theorem stopped_attempt {step : Attempt} {error : StoreError} {next : Saved}
    (hstep : step ≠ .done) : (attempt step error dir store next).dir = dir ∧
      (attempt step error dir store next).Stopped store := by
  cases step with
  | done => exact absurd rfl hstep
  | failed => exact ⟨rfl, .inr ⟨error, rfl⟩⟩
  | crashed => exact ⟨rfl, .inl rfl⟩

theorem attempt_done {step : Attempt} {error : StoreError} {next : Saved} (hstep : step = .done) :
    attempt step error dir store next = next := by
  rw [hstep]
  rfl

inductive Saves (os : Foundation) (calls : SaveCalls) (eeprom : List Byte) (dir : Directory)
    (store : PWSessionStore) : Saved → Prop
  /-- It stops before it has written anything. -/
  | refused {saved : Saved} (hno : ¬ Replaces os calls eeprom dir store) (hdir : saved.dir = dir)
      (hstop : saved.Stopped store) : Saves os calls eeprom dir store saved
  | unchanged (hlength : eeprom.length = 65536) (hsaved : store.lastSaved = some eeprom) :
      Saves os calls eeprom dir store { dir, result := some (store, .ok ()) }
  /-- It stops between the two writes. -/
  | copied {saved : Saved} (hno : ¬ Replaces os calls eeprom dir store)
      (hread : readState os store.identifier dir.state ≠ none)
      (hdir : saved.dir = { dir with previous := dir.state })
      (hstop : saved.Stopped store) : Saves os calls eeprom dir store saved
  /-- It fails after the second write. -/
  | unsynchronised (hyes : Replaces os calls eeprom dir store) (hsync : calls.SyncFails) :
      Saves os calls eeprom dir store
        { dir := replaced os calls eeprom dir store.identifier
          result := some (store, .error (.message
            "La sauvegarde n’a pas pu être synchronisée sur le disque.")) }
  /-- The process dies after the second write. -/
  | cut (hyes : Replaces os calls eeprom dir store)
      (hcrash : calls.openFile = .crashed ∨ calls.openFile = .done ∧ calls.fsync = .crashed) :
      Saves os calls eeprom dir store
        { dir := replaced os calls eeprom dir store.identifier, result := none }
  | written (hyes : Replaces os calls eeprom dir store)
      (hsync : calls.openFile = .done ∧ calls.fsync = .done) :
      Saves os calls eeprom dir store
        { dir := replaced os calls eeprom dir store.identifier
          result := some ({ store with lastSaved := some eeprom }, .ok ()) }

theorem saves_replaceState {copied : Directory}
    (hready : calls.writeState = .done → Replaces os calls eeprom dir store)
    (hprevious : copied.previous = backup os store.identifier dir)
    (hstopped : ¬ Replaces os calls eeprom dir store → ∀ saved : Saved, saved.dir = copied →
      saved.Stopped store → Saves os calls eeprom dir store saved) :
    Saves os calls eeprom dir store (replaceState (os.dataWithPropertyList
      (sessionContainer os.digest store.identifier eeprom calls.date)) calls eeprom copied
        store) := by
  unfold replaceState
  by_cases hwrite : calls.writeState = .done
  case neg =>
    obtain ⟨hdir, hstop⟩ := stopped_attempt hwrite
    exact hstopped (fun h => hwrite h.2.2.2.2) _ hdir hstop
  have hyes := hready hwrite
  have hreplaced : { copied with state := some (os.dataWithPropertyList (sessionContainer
      os.digest store.identifier eeprom calls.date)) } =
      replaced os calls eeprom dir store.identifier := by
    rw [replaced, hprevious]
  rw [attempt_done hwrite, hreplaced]
  cases hopen : calls.openFile with
  | failed => exact .unsynchronised hyes (.inl hopen)
  | crashed => exact .cut hyes (.inl hopen)
  | done =>
    rw [attempt_done rfl]
    cases hfsync : calls.fsync with
    | failed => exact .unsynchronised hyes (.inr ⟨hopen, hfsync⟩)
    | crashed => exact .cut hyes (.inr ⟨hopen, hfsync⟩)
    | done => exact .written hyes ⟨hopen, hfsync⟩

theorem saves (os : Foundation) (calls : SaveCalls) (eeprom : List Byte) (dir : Directory)
    (store : PWSessionStore) :
    Saves os calls eeprom dir store (save os calls eeprom dir store) := by
  unfold save
  by_cases hlength : eeprom.length = 65536
  case neg =>
    rw [if_pos hlength]
    exact .refused (fun h => hlength h.1) rfl (.inr ⟨_, rfl⟩)
  rw [if_neg (not_not.mpr hlength)]
  by_cases hsaved : some eeprom = store.lastSaved
  case pos =>
    rw [if_pos hsaved]
    exact .unchanged hlength hsaved.symm
  rw [if_neg hsaved]
  by_cases hlist : calls.dataWithPropertyList = .done
  case neg =>
    obtain ⟨hdir, hstop⟩ := stopped_attempt hlist
    exact .refused (fun h => hlist h.2.2.1) hdir hstop
  rw [attempt_done hlist]
  cases hread : readState os store.identifier dir.state with
  | none =>
    refine saves_replaceState ?_ (by simp [backup, hread]) fun hno _ hdir hstop =>
      .refused hno hdir hstop
    intro hwrite
    exact ⟨hlength, hsaved, hlist, fun hne => absurd hread hne, hwrite⟩
  | some bytes =>
    have hreadable : readState os store.identifier dir.state ≠ none := by simp [hread]
    by_cases hcontents : calls.dataWithContentsOfURL = .done
    case neg =>
      obtain ⟨hdir, hstop⟩ := stopped_attempt hcontents
      exact .refused (fun h => hcontents (h.2.2.2.1 hreadable).1) hdir hstop
    dsimp only
    rw [attempt_done hcontents]
    by_cases hprevious : calls.writePrevious = .done
    case neg =>
      obtain ⟨hdir, hstop⟩ := stopped_attempt hprevious
      exact .refused (fun h => hprevious (h.2.2.2.1 hreadable).2) hdir hstop
    rw [attempt_done hprevious]
    refine saves_replaceState ?_ (by simp [backup, hread]) fun hno _ hdir hstop =>
      .copied hno hreadable hdir hstop
    intro hwrite
    exact ⟨hlength, hsaved, hlist, fun _ => ⟨hcontents, hprevious⟩, hwrite⟩

theorem generations_replaced (heeprom : eeprom.length = 65536) :
    generations os store.identifier (replaced os calls eeprom dir store.identifier) =
      { current := some eeprom, backup := (generations os store.identifier dir).recovered } := by
  unfold generations replaced backup Generations.recovered
  rw [readState_saved _ store.identifier_valid heeprom]
  cases hread : readState os store.identifier dir.state <;> simp [hread]

/-- A save is an update of the two generations, wherever it stops. -/
theorem save_update (os : Foundation) (calls : SaveCalls) (eeprom : List Byte) (dir : Directory)
    (store : PWSessionStore) :
    Generations.Update eeprom (generations os store.identifier dir)
      (generations os store.identifier (save os calls eeprom dir store).dir) := by
  have hsaves := saves os calls eeprom dir store
  generalize save os calls eeprom dir store = saved at hsaves
  cases hsaves with
  | refused _ hdir =>
    rw [hdir]
    exact .started
  | unchanged => exact .started
  | copied _ hread hdir =>
    rw [hdir]
    exact .copied hread
  | unsynchronised hyes =>
    rw [generations_replaced hyes.1]
    exact .replaced
  | cut hyes =>
    rw [generations_replaced hyes.1]
    exact .replaced
  | written hyes =>
    rw [generations_replaced hyes.1]
    exact .replaced

theorem save_of_lastSaved (calls : SaveCalls) (dir : Directory)
    (hsaved : store.lastSaved = some eeprom) (heeprom : eeprom.length = 65536) :
    save os calls eeprom dir store = { dir, result := some (store, .ok ()) } := by
  simp [save, hsaved, heeprom]

theorem save_of_syncFails (hyes : Replaces os calls eeprom dir store) (hsync : calls.SyncFails) :
    save os calls eeprom dir store =
      { dir := replaced os calls eeprom dir store.identifier
        result := some (store, .error (.message
          "La sauvegarde n’a pas pu être synchronisée sur le disque.")) } := by
  have hsaves := saves os calls eeprom dir store
  generalize save os calls eeprom dir store = saved at hsaves
  cases hsaves with
  | refused hno => exact absurd hyes hno
  | unchanged _ hsaved => exact absurd hsaved.symm hyes.2.1
  | copied hno => exact absurd hyes hno
  | unsynchronised => rfl
  | cut _ hcrash => rcases hsync with h | h <;> rcases hcrash with h' | h' <;> simp_all
  | written _ hdone => rcases hsync with h | h <;> simp_all

theorem save_of_done (hyes : Replaces os calls eeprom dir store) (hopen : calls.openFile = .done)
    (hfsync : calls.fsync = .done) :
    save os calls eeprom dir store =
      { dir := replaced os calls eeprom dir store.identifier
        result := some ({ store with lastSaved := some eeprom }, .ok ()) } := by
  have hsaves := saves os calls eeprom dir store
  generalize save os calls eeprom dir store = saved at hsaves
  cases hsaves with
  | refused hno => exact absurd hyes hno
  | unchanged _ hsaved => exact absurd hsaved.symm hyes.2.1
  | copied hno => exact absurd hyes hno
  | unsynchronised _ hsync => rcases hsync with h | h <;> simp_all
  | cut _ hcrash => rcases hcrash with h | h <;> simp_all
  | written => rfl

theorem save_written (h : (save os calls eeprom dir store).result = some (next, .ok ()))
    (hnew : store.lastSaved ≠ some eeprom) :
    readState os store.identifier (save os calls eeprom dir store).dir.state = some eeprom ∧
      (save os calls eeprom dir store).dir.previous =
        if readState os store.identifier dir.state = none then dir.previous else dir.state := by
  have hsaves := saves os calls eeprom dir store
  generalize save os calls eeprom dir store = saved at h hsaves
  cases hsaves with
  | refused _ _ hstop => exact absurd h hstop.not_ok
  | unchanged _ hsaved => exact absurd hsaved hnew
  | copied _ _ _ hstop => exact absurd h hstop.not_ok
  | unsynchronised => cases h
  | cut => cases h
  | written hyes =>
    refine ⟨readState_saved _ store.identifier_valid hyes.1, ?_⟩
    cases hread : readState os store.identifier dir.state <;> simp [replaced, backup, hread]

end PokeStroller.Store

import PokeStroller.Lib.Bytes

/-!
# The session store

`PWSessionStore` of session_store.m, with the outcome of every call that can
fail as an input. The process may also die in a call, which leaves the files as
they are at that point; a write with `NSDataWritingAtomic` then happens as a
whole or not at all. The lock file does not appear.
-/

namespace PokeStroller.Store

-- ---------------------------------------------------------------------------
-- Files
-- ---------------------------------------------------------------------------

/-- The property list of a session file. An entry that is missing, or of
another class, is `none`. -/
structure Container where
  version : Option Int
  identity : Option String
  eeprom : Option (List Byte)
  sha256 : Option String
  savedAt : Option Nat
  deriving DecidableEq, Repr

structure NSData where
  length : Nat
  /-- The dictionary in it; `none` if it cannot be read as one. -/
  propertyList : Option Container
  deriving DecidableEq, Repr

structure Directory where
  /-- `session.pws` -/
  state : Option NSData
  /-- `previous.pws` -/
  previous : Option NSData
  deriving DecidableEq, Repr

def sessionContainer (digest : List Byte → String) (identifier : String) (eeprom : List Byte)
    (date : Nat) : Container :=
  { version := some 1, identity := some identifier, eeprom := some eeprom
    sha256 := some (digest eeprom), savedAt := some date }

/-- CommonCrypto and the property lists of Foundation. -/
structure Foundation where
  /-- The hex digits of `CC_SHA256`. -/
  digest : List Byte → String
  /-- The length of a container as a binary property list. -/
  length : Container → Nat
  length_le : ∀ identifier eeprom date, identifier.length = 64 → eeprom.length = 65536 →
    length (sessionContainer digest identifier eeprom date) ≤ 131072

def Foundation.dataWithPropertyList (os : Foundation) (container : Container) : NSData :=
  { length := os.length container, propertyList := some container }

-- ---------------------------------------------------------------------------
-- The store
-- ---------------------------------------------------------------------------

inductive StoreError
  /-- set by `storeError` -/
  | message (text : String)
  /-- set by Foundation -/
  | system
  deriving DecidableEq, Repr

def validIdentifier (identifier : String) : Bool :=
  identifier.length = 64 && identifier.toList.all ("0123456789abcdef".toList.contains ·)

structure PWSessionStore where
  identifier : String
  identifier_valid : validIdentifier identifier = true
  lastSaved : Option (List Byte) := none
  recoveredBackup : Bool := false

def initWithRoot (identifier : String) : Except StoreError PWSessionStore :=
  if h : validIdentifier identifier = true then .ok { identifier, identifier_valid := h }
  else .error (.message "Identifiant de session invalide.")

def readState (os : Foundation) (identifier : String) (file : Option NSData) :
    Option (List Byte) :=
  match file with
  | none => none
  | some data =>
    if 131072 < data.length then none
    else
      match data.propertyList with
      | none => none
      | some state =>
        match state.eeprom with
        | none => none
        | some bytes =>
          if state.version ≠ some 1 ∨ state.identity ≠ some identifier ∨ bytes.length ≠ 65536 ∨
              state.sha256 ≠ some (os.digest bytes) then none
          else some bytes

/-- The store, what it returns and the error it sets. -/
def restore (os : Foundation) (dir : Directory) (store : PWSessionStore) :
    PWSessionStore × Option (List Byte) × Option StoreError :=
  match readState os store.identifier dir.state with
  | some bytes => ({ store with lastSaved := some bytes }, some bytes, none)
  | none =>
    match readState os store.identifier dir.previous with
    | some bytes => ({ store with lastSaved := none, recoveredBackup := true }, some bytes, none)
    | none =>
      if dir.state.isSome || dir.previous.isSome then
        (store, none, some (.message "La sauvegarde et sa copie précédente sont illisibles. Elles sont conservées ; choisissez un nouveau profil ou restaurez une exportation."))
      else (store, none, none)

inductive Attempt
  | done
  | failed
  /-- The process dies before the step takes effect. -/
  | crashed
  deriving DecidableEq, Repr

/-- The steps of `save:` that can fail, and the date of the save. -/
structure SaveCalls where
  date : Nat := 0
  dataWithPropertyList : Attempt := .done
  dataWithContentsOfURL : Attempt := .done
  /-- of `previous.pws` -/
  writePrevious : Attempt := .done
  /-- of `session.pws` -/
  writeState : Attempt := .done
  openFile : Attempt := .done
  fsync : Attempt := .done
  deriving DecidableEq, Repr

/-- The files after a call, and what it returned unless the process died. -/
structure Saved where
  dir : Directory
  result : Option (PWSessionStore × Except StoreError Unit)

def attempt (step : Attempt) (error : StoreError) (dir : Directory) (store : PWSessionStore)
    (next : Saved) : Saved :=
  match step with
  | .done => next
  | .failed => { dir, result := some (store, .error error) }
  | .crashed => { dir, result := none }

/-- `save:` from the replacement of `session.pws`. -/
def replaceState (container : NSData) (calls : SaveCalls) (eeprom : List Byte) (dir : Directory)
    (store : PWSessionStore) : Saved :=
  attempt calls.writeState .system dir store <|
  let dir := { dir with state := some container }
  let unsynchronised :=
    StoreError.message "La sauvegarde n’a pas pu être synchronisée sur le disque."
  attempt calls.openFile unsynchronised dir store <|
  attempt calls.fsync unsynchronised dir store <|
  { dir, result := some ({ store with lastSaved := some eeprom }, .ok ()) }

def save (os : Foundation) (calls : SaveCalls) (eeprom : List Byte) (dir : Directory)
    (store : PWSessionStore) : Saved :=
  if eeprom.length ≠ 65536 then
    { dir, result := some (store, .error (.message "Taille d’EEPROM invalide.")) }
  else if some eeprom = store.lastSaved then { dir, result := some (store, .ok ()) }
  else
    attempt calls.dataWithPropertyList .system dir store <|
    let container := os.dataWithPropertyList
      (sessionContainer os.digest store.identifier eeprom calls.date)
    match readState os store.identifier dir.state with
    | some _ =>
      attempt calls.dataWithContentsOfURL .system dir store <|
      attempt calls.writePrevious .system dir store <|
      replaceState container calls eeprom { dir with previous := dir.state } store
    | none => replaceState container calls eeprom dir store

end PokeStroller.Store

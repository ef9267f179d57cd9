import ArenaGame.Common.BinaryStream
import ArenaGame.Util.TextStream
import Mathlib.Data.List.AList

/-!
# Accounts (`server/game/AccountRepository.h`, `server/game/AccountRepository.cc`)

The repository holds the accounts in memory and the contents of the file that `filePath_` names
(`file_`, `none` while the file does not exist).  `save` writes a temporary file and renames it, so
`file_` only ever changes at a successful rename.  What a call of `save` meets outside the program
is a `SaveIO`: whether each step succeeds, and the order in which the hash map is traversed.

A stored record has a valid name and password and a nonzero user id.
-/

namespace ArenaGame

structure Account where
  userId_ : UInt32 := 0
  userName_ : StdString := []
  elo_ : UInt32 := 1000
deriving DecidableEq

inductive AccountResult
  | kOk | kDuplicateUser | kInvalidCredentials | kInvalidInput | kStorageError
deriving DecidableEq, Repr

def isValidInput (userName password : StdString) : Bool :=
  if userName.isEmpty || userName.length > 32 || password.isEmpty || password.length > 128 then
    false
  else
    userName.all (!TextStream.isSpace ·) && password.all (!TextStream.isSpace ·)

structure AccountRecord where
  account_ : Account
  password_ : StdString
  valid : isValidInput account_.userName_ password_ = true
  userId_ne_zero : account_.userId_ ≠ 0

/-- The record with another ELO. -/
def AccountRecord.withElo (record : AccountRecord) (elo : UInt32) : AccountRecord where
  account_ := { record.account_ with elo_ := elo }
  password_ := record.password_
  valid := record.valid
  userId_ne_zero := record.userId_ne_zero

/-- `accounts_`: a hash map whose traversal order is not fixed by its contents. -/
abbrev Accounts := AList fun _ : StdString => AccountRecord

abbrev AccountEntry := Sigma fun _ : StdString => AccountRecord

/-- What a call of `save` meets outside the program. -/
structure SaveIO where
  /-- The order in which the map is traversed. -/
  order : List AccountEntry → List AccountEntry
  order_perm : ∀ entries, (order entries).Perm entries
  opened : Bool
  good : Bool
  renamed : Bool

/-- Every step of `save` succeeds. -/
def SaveIO.succeeds (io : SaveIO) : Bool := io.opened && io.good && io.renamed

structure AccountRepository where
  file_ : Option (List UInt8) := none
  nextUserId_ : UInt32 := 1
  accounts_ : Accounts := ∅

namespace AccountRepository

/-! ### Loading -/

/-- `input >> userName >> password >> userId >> elo`. -/
def readRecord (input : TextStream) :
    Option (StdString × StdString × UInt32 × UInt32) × TextStream :=
  match input.word with
  | (none, input) => (none, input)
  | (some userName, input) =>
    match input.word with
    | (none, input) => (none, input)
    | (some password, input) =>
      match input.number with
      | (none, input) => (none, input)
      | (some userId, input) =>
        match input.number with
        | (none, input) => (none, input)
        | (some elo, input) => (some (userName, password, userId, elo), input)

theorem readRecord_length_lt {input input' : TextStream} {fields}
    (h : readRecord input = (some fields, input')) : input'.rest.length < input.rest.length := by
  unfold readRecord at h
  split at h
  · cases h
  · rename_i h₁
    split at h
    · cases h
    · rename_i h₂
      split at h
      · cases h
      · rename_i h₃
        split at h
        · cases h
        · rename_i h₄
          obtain ⟨-, rfl⟩ := Prod.mk.inj h
          have := TextStream.word_length_lt h₁
          have := TextStream.word_length_lt h₂
          have := TextStream.number_length_le h₃
          have := TextStream.number_length_le h₄
          omega

/-- The next user id after an account with the id `userId` was loaded. -/
def nextAfter (nextUserId userId : UInt32) : UInt32 :=
  if userId = 4294967295 then 0
  else if nextUserId ≠ 0 ∧ userId ≥ nextUserId then userId + 1
  else nextUserId

/-- The loop of `load`; `none` is a `return false` inside it. -/
def loadLoop (input : TextStream) (loadedAccounts : Accounts) (nextUserId : UInt32) :
    Option (TextStream × Accounts × UInt32) :=
  match _h : readRecord input with
  | (none, input) => some (input, loadedAccounts, nextUserId)
  | (some (userName, password, userId, elo), input) =>
    if hvalid : isValidInput userName password = true ∧ userId ≠ 0 then
      if userName ∈ loadedAccounts then none
      else
        let record : AccountRecord :=
          { account_ := { userId_ := userId, userName_ := userName, elo_ := elo }
            password_ := password
            valid := hvalid.1
            userId_ne_zero := hvalid.2 }
        loadLoop input (loadedAccounts.insert userName record) (nextAfter nextUserId userId)
    else none
termination_by input.rest.length
decreasing_by exact readRecord_length_lt _h

/-- `load`; an existing file can be read. -/
def load (repo : AccountRepository) : Bool × AccountRepository :=
  match repo.file_ with
  | none => (true, repo)
  | some text =>
    match loadLoop { rest := text } ∅ 1 with
    | none => (false, repo)
    | some (input, loadedAccounts, nextUserId) =>
      if !input.eofbit then (false, repo)
      else (true, { repo with accounts_ := loadedAccounts, nextUserId_ := nextUserId })

/-- A new `AccountRepository` on the same path. -/
def restart (repo : AccountRepository) : AccountRepository := { file_ := repo.file_ }

/-! ### Saving -/

/-- One line of the file. -/
def recordLine (record : AccountRecord) : List UInt8 :=
  record.account_.userName_ ++ 32 :: (record.password_ ++ 32 ::
    (Decimal.toBytes record.account_.userId_.toNat ++ 32 ::
      (Decimal.toBytes record.account_.elo_.toNat ++ [10])))

def save (repo : AccountRepository) (io : SaveIO) : Bool × AccountRepository :=
  if !io.opened then (false, repo)
  else
    let text := (io.order repo.accounts_.entries).flatMap fun entry => recordLine entry.2
    if !io.good then (false, repo)
    else if !io.renamed then (false, repo)
    else (true, { repo with file_ := some text })

/-! ### Operations -/

def Register (repo : AccountRepository) (io : SaveIO) (userName password : StdString)
    (outAccount : Account) : AccountResult × Account × AccountRepository :=
  if hvalid : isValidInput userName password = true then
    if userName ∈ repo.accounts_ then (.kDuplicateUser, outAccount, repo)
    else if hnext : repo.nextUserId_ = 0 then (.kStorageError, outAccount, repo)
    else
      let record : AccountRecord :=
        { account_ := { userId_ := repo.nextUserId_, userName_ := userName, elo_ := 1000 }
          password_ := password
          valid := hvalid
          userId_ne_zero := hnext }
      let saved := { repo with accounts_ := repo.accounts_.insert userName record }.save io
      if !saved.1 then
        (.kStorageError, outAccount,
          { saved.2 with accounts_ := saved.2.accounts_.erase userName })
      else
        (.kOk, record.account_,
          { saved.2 with
            nextUserId_ := if repo.nextUserId_ = 4294967295 then 0 else repo.nextUserId_ + 1 })
  else (.kInvalidInput, outAccount, repo)

def Verify (repo : AccountRepository) (userName password : StdString) (outAccount : Account) :
    AccountResult × Account :=
  if !isValidInput userName password then (.kInvalidInput, outAccount)
  else
    match repo.accounts_.lookup userName with
    | none => (.kInvalidCredentials, outAccount)
    | some record =>
      if record.password_ ≠ password then (.kInvalidCredentials, outAccount)
      else (.kOk, record.account_)

/-- The loop of `updateEloPair`: the names under which the two users are stored. -/
def findRecords (entries : List AccountEntry) (firstUserId secondUserId : UInt32) :
    Option StdString × Option StdString :=
  entries.foldl (fun (found : Option StdString × Option StdString) entry =>
    if entry.2.account_.userId_ = firstUserId then (some entry.1, found.2)
    else if entry.2.account_.userId_ = secondUserId then (found.1, some entry.1)
    else found) (none, none)

/-- `record->account_.elo_ = elo` for the record stored under `userName`. -/
def setElo (accounts : Accounts) (userName : StdString) (elo : UInt32) : Accounts :=
  match accounts.lookup userName with
  | none => accounts
  | some record => accounts.insert userName (record.withElo elo)

def updateEloPair (repo : AccountRepository) (io : SaveIO) (firstUserId firstElo secondUserId
    secondElo : UInt32) : Bool × AccountRepository :=
  if firstUserId = 0 ∨ secondUserId = 0 ∨ firstUserId = secondUserId then (false, repo)
  else
    match findRecords (io.order repo.accounts_.entries) firstUserId secondUserId with
    | (some first, some second) =>
      let oldElo (name : StdString) : UInt32 :=
        ((repo.accounts_.lookup name).map fun record => record.account_.elo_).getD 0
      let saved := { repo with
        accounts_ := setElo (setElo repo.accounts_ first firstElo) second secondElo }.save io
      if saved.1 then (true, saved.2)
      else
        (false, { saved.2 with
          accounts_ := setElo (setElo saved.2.accounts_ first (oldElo first)) second
            (oldElo second) })
    | _ => (false, repo)

end AccountRepository

end ArenaGame

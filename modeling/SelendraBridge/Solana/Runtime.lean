import SelendraBridge.Basic
import SelendraBridge.Lib.Revert

/-!
# What a Solana program sees

All state is in accounts: bytes with an owner and a balance. An instruction is handed a
list of accounts by whoever submits it, with what the transaction says of each – signed,
writable – and trusts none of them until it has checked its address and its owner. What
the program calls is outside the repository and a parameter here: the system program, the
token program, the system variables, address derivation, hashing and signature recovery.
-/

namespace SelendraBridge

/-- A public key. -/
abbrev Pubkey := Bytes32

namespace Solana

/-- An account. -/
structure Account where
  owner : Pubkey
  lamports : U64
  data : Bytes
  deriving DecidableEq

/-- The state of a cluster. -/
abbrev Accounts := Pubkey → Account

/-- An account as an instruction gets it. -/
structure AccountInfo where
  key : Pubkey
  isSigner : Bool
  isWritable : Bool
  deriving DecidableEq, Repr

/-- What a token account says. -/
structure TokenAccount where
  mint : Pubkey
  owner : Pubkey
  amount : U64
  delegate : Option Pubkey
  closeAuthority : Option Pubkey
  deriving DecidableEq, Repr

/-- `UpgradeableLoaderState`, as far as it is read. -/
inductive LoaderState
  | programData (upgradeAuthority : Option Pubkey)
  | other
  deriving DecidableEq, Repr

/-- `GateError`. -/
inductive GateError
  | zeroAmount
  | badReceiver
  | alreadyExecuted
  | invalidSignerOrder
  | notEnoughSignatures
  | badSignature
  | corridorNotRegistered
  | paused
  | atCapacity
  | notSent
  | alreadyClaimed
  | notCancelled
  | tooManySignatures
  | receiverNotTokenAccount
  | assetAlreadyRegistered
  | zeroBridgeDomain
  | governanceNotScheduled
  | governanceNotReady
  | governanceExpired
  | duplicateValidator
  | zeroValidator
  | inexactAmount
  | invalidBridgeDecimals
  | amountOverflow
  | bridgeScaleMismatch
  | notSealed
  | alreadySealed
  | vaultAssetMismatch
  | thresholdTooHigh
  | useTypedSchedule
  | notSchedulable
  deriving DecidableEq, Repr

/-- `ProgramError`: one of the program's own, or one of the runtime's. -/
inductive ProgramError
  | custom (e : GateError)
  | notEnoughAccountKeys
  | missingRequiredSignature
  | invalidArgument
  | accountAlreadyInitialized
  | invalidSeeds
  | illegalOwner
  | invalidAccountData
  | incorrectProgramId
  | arithmeticOverflow
  | accountDataTooSmall
  /-- A write to an account that the transaction did not offer for writing. -/
  | readonlyDataModified
  /-- A write to an account that is not the program's. -/
  | externalDataModified
  /-- A system variable that could not be read. -/
  | unsupportedSysvar
  /-- A call of another program that failed. -/
  | crossProgram
  deriving DecidableEq, Repr

/-- **What the program runs on.** -/
structure Runtime where
  programId : Pubkey
  /-- The system program, which owns every account that nobody took. -/
  systemId : Pubkey
  /-- `spl_token::id()`. -/
  splTokenId : Pubkey
  /-- `bpf_loader_upgradeable::id()`. -/
  loaderId : Pubkey
  keccak256 : Bytes → Bytes32
  /-- `find_program_address` for this program, without the bump. -/
  findProgramAddress : List Bytes → Pubkey
  /-- Is this an address that the program derives? -/
  isDerived : Pubkey → Bool
  /-- The address of the program's `ProgramData`, derived by the loader. -/
  programDataAddress : Pubkey
  /-- `bincode` of a loader state. -/
  loaderState : Bytes → Option LoaderState
  /-- `secp256k1_recover`: the public key behind a signature, by its recovery id. -/
  secp256k1Recover : Bytes32 → UInt8 → Bytes → Option Bytes
  /-- `spl_token::state::Account::unpack`. -/
  unpackTokenAccount : Bytes → Option TokenAccount
  /-- `spl_token::state::Mint::unpack`: the decimals. -/
  unpackMint : Bytes → Option UInt8
  /-- `Rent::minimum_balance`. -/
  minimumBalance : ℕ → U64
  /-- A transfer of lamports by the system program. -/
  systemTransfer : AccountInfo → Pubkey → U64 → Accounts → Option Accounts
  /-- `allocate`, signed with the seeds of the target. -/
  systemAllocate : Pubkey → ℕ → Accounts → Option Accounts
  /-- `assign` to this program, signed with the seeds of the target. -/
  systemAssign : Pubkey → Accounts → Option Accounts
  /-- A transfer of tokens: source, target, authority, whether the authority signed, and
  the amount. -/
  splTransfer : Pubkey → Pubkey → Pubkey → Bool → U64 → Accounts → Option Accounts

/-- `Clock::get()?.unix_timestamp`: a signed number, if it can be read. -/
abbrev Clock := Option (BitVec 64)

open Revert

variable (R : Runtime) (s : Accounts)

/-! ### Calls and writes -/

/-- A call of another program. -/
def invoke (r : Option Accounts) : Except ProgramError Accounts := orRevert .crossProgram r

/-- A check that fails with an error of the program. -/
def check (p : Prop) [Decidable p] (e : GateError) : Except ProgramError Unit :=
  revertIf (¬p) (.custom e)

/-- Write the data of an account, which has to be the program's. -/
def writeData (ai : AccountInfo) (data : Bytes) : Except ProgramError Accounts := do
  revertIf (ai.isWritable = false) .readonlyDataModified
  revertIf ((s ai.key).owner ≠ R.programId) .externalDataModified
  return Function.update s ai.key { s ai.key with data }

/-- Overwrite the front of an account's data. -/
def writeFront (ai : AccountInfo) (front : Bytes) : Except ProgramError Accounts := do
  revertIf ((s ai.key).data.length < front.length) .accountDataTooSmall
  writeData R s ai (front ++ (s ai.key).data.drop front.length)

/-- `write_zero_padded`. -/
def writeZeroPadded (ai : AccountInfo) (front : Bytes) : Except ProgramError Accounts := do
  let space := (s ai.key).data.length
  revertIf (space < front.length) .accountDataTooSmall
  writeData R s ai (front ++ List.replicate (space - front.length) 0)

/-- The canonical account of some seeds, owned by the program. -/
def verifyPda (ai : AccountInfo) (seeds : List Bytes) : Except ProgramError Unit := do
  revertIf (ai.key ≠ R.findProgramAddress seeds) .invalidSeeds
  revertIf ((s ai.key).owner ≠ R.programId) .illegalOwner

/-- `is_already_executed`. -/
def isAlreadyExecuted (account : Account) : Bool :=
  account.owner == R.programId && decide (0 < account.data.length)

/-- Top an account up to rent exemption for `space` bytes. -/
def payRent (payer target : AccountInfo) (space : ℕ) : Except ProgramError Accounts :=
  let rent := R.minimumBalance space
  let lamports := (s target.key).lamports
  if lamports < rent then invoke (R.systemTransfer payer target.key (rent - lamports) s)
  else .ok s

/-- `create_pda_account`. -/
def createPdaAccount (payer target : AccountInfo) (space : ℕ) : Except ProgramError Accounts := do
  let s ← payRent R s payer target space
  let s ← invoke (R.systemAllocate target.key space s)
  invoke (R.systemAssign target.key s)

/-- `grow_program_account`. -/
def growProgramAccount (payer target : AccountInfo) (space : ℕ) : Except ProgramError Accounts := do
  let s ← payRent R s payer target space
  let data := (s target.key).data
  writeData R s target (data ++ List.replicate (space - data.length) 0)

/-- `MARKER_LEN`. -/
def MARKER_LEN : ℕ := 1

/-- `MARKER_CLAIMED`. -/
def MARKER_CLAIMED : UInt8 := 1

/-- `MARKER_CANCELLED`. -/
def MARKER_CANCELLED : UInt8 := 2

/-- `create_marker`. -/
def createMarker (payer marker : AccountInfo) (state : UInt8) : Except ProgramError Accounts := do
  let s ← createPdaAccount R s payer marker MARKER_LEN
  writeFront R s marker [state]

/-- `spl_mint_and_owner`. -/
def splMintAndOwner (token tokenProgram : AccountInfo) : Except ProgramError TokenAccount := do
  revertIf ((s token.key).owner ≠ tokenProgram.key) .illegalOwner
  orRevert .invalidAccountData (R.unpackTokenAccount (s token.key).data)

/-- `receiver_token_account`: the same checks, under an error of their own. -/
def receiverTokenAccount (token tokenProgram : AccountInfo) : Except ProgramError TokenAccount := do
  check ((s token.key).owner = tokenProgram.key) .receiverNotTokenAccount
  orRevert (.custom .receiverNotTokenAccount) (R.unpackTokenAccount (s token.key).data)

/-! ### What the other programs are relied on for -/

/-- Two accounts that differ at most in their balance. -/
structure Account.Same (a a' : Account) : Prop where
  owner : a'.owner = a.owner
  data : a'.data = a.data

/-- An account nobody took: anybody may have put lamports there. -/
structure Account.Free (a : Account) : Prop where
  owner : a.owner = R.systemId
  data : a.data = []

/-- **What a token account stays** when it pays: of its mint, with its holder and whoever may close
it. A delegate that has used up its allowance is one no longer. -/
structure TokenAccount.Stays (t t' : TokenAccount) : Prop where
  mint : t'.mint = t.mint
  owner : t'.owner = t.owner
  closeAuthority : t'.closeAuthority = t.closeAuthority
  delegate : t'.delegate = t.delegate ∨ t'.delegate = none

namespace TokenAccount.Stays

variable {t t' t'' : TokenAccount}

theorem refl (t : TokenAccount) : t.Stays t := ⟨rfl, rfl, rfl, .inl rfl⟩

/-- Another amount is no other account. -/
theorem of_amount (h : t' = { t with amount := t'.amount }) : t.Stays t' := by
  rw [h]
  exact ⟨rfl, rfl, rfl, .inl rfl⟩

theorem delegate_none (h : t.Stays t') (hnone : t.delegate = none) : t'.delegate = none :=
  h.delegate.elim (fun heq => heq.trans hnone) id

theorem trans (h : t.Stays t') (h' : t'.Stays t'') : t.Stays t'' where
  mint := h'.mint.trans h.mint
  owner := h'.owner.trans h.owner
  closeAuthority := h'.closeAuthority.trans h.closeAuthority
  delegate := by
    rcases h.delegate with heq | hnone
    · rw [← heq]
      exact h'.delegate
    · exact .inr (h'.delegate_none hnone)

/-- Nobody else comes into control. -/
theorem held {mint owner : Pubkey} (h : t.Stays t') (ht : t.mint = mint ∧ t.owner = owner ∧
    t.delegate = none ∧ t.closeAuthority = none) :
    t'.mint = mint ∧ t'.owner = owner ∧ t'.delegate = none ∧ t'.closeAuthority = none :=
  ⟨h.mint.trans ht.1, h.owner.trans ht.2.1, h.delegate_none ht.2.2.1,
    h.closeAuthority.trans ht.2.2.2⟩

end TokenAccount.Stays

/-- **A move of exactly the amount** between two token accounts: what the source loses
the target gains. The target changes in nothing else, and the source at most in its delegate. -/
structure TokensMoved (source target : Pubkey) (amount : U64) (s s' : Accounts) : Prop where
  lost : source ≠ target → ∃ t t', R.unpackTokenAccount (s source).data = some t ∧
    R.unpackTokenAccount (s' source).data = some t' ∧ t.Stays t' ∧
    t'.amount.toNat + amount.toNat = t.amount.toNat
  gained : source ≠ target → ∃ t t', R.unpackTokenAccount (s target).data = some t ∧
    R.unpackTokenAccount (s' target).data = some t' ∧ t' = { t with amount := t'.amount } ∧
    t'.amount.toNat = t.amount.toNat + amount.toNat
  self : source = target → s' = s
  other : ∀ k, k ≠ source → k ≠ target → s' k = s k

/-- **The rules of the runtime**: a program changes only what it owns. The system program
gives an account away only when nobody took it; the token program moves what it was asked
to move; the addresses of this program are derived. -/
structure Runtime.Lawful : Prop where
  isDerived : ∀ seeds, R.isDerived (R.findProgramAddress seeds) = true
  programId_ne_systemId : R.programId ≠ R.systemId
  programId_ne_splTokenId : R.programId ≠ R.splTokenId
  systemId_ne_splTokenId : R.systemId ≠ R.splTokenId
  /-- Lamports are all that a transfer of lamports moves. -/
  systemTransfer : ∀ {payer target amount s s'}, R.systemTransfer payer target amount s = some s' →
    ∀ k, (s k).Same (s' k)
  systemAllocate : ∀ {target space s s'}, R.systemAllocate target space s = some s' →
    (s target).Free R ∧ s' = Function.update s target
      { s target with data := List.replicate space 0 }
  systemAssign : ∀ {target s s'}, R.systemAssign target s = some s' →
    s' = Function.update s target { s target with owner := R.programId }
  /-- Only token accounts are touched, and they stay token accounts. -/
  splTransfer : ∀ {source target authority signed amount s s'},
    R.splTransfer source target authority signed amount s = some s' →
      (s source).owner = R.splTokenId ∧ (s target).owner = R.splTokenId ∧
      (∀ k, (s' k).owner = (s k).owner) ∧ TokensMoved R source target amount s s'

end Solana

end SelendraBridge

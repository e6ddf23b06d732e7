import SelendraBridge.Solana.Cluster
import SelendraBridge.SolanaSwap.Machine

/-!
# A cluster to run the swap program on

The cluster that the gate's results are run on (`SelendraBridge.Solana.Cluster.runtime`), with the
addresses of the pool's seeds and a token program that checks the mint and its decimals before it
moves anything. It keeps the rules, too (`SelendraBridge.SolanaSwap.Cluster.lawful`).

The runs start from one deployment: a hub of six decimals and another mint of nine, each with a
vault, and whoever deployed the program with some of both.
-/

namespace SelendraBridge

namespace SolanaSwap

namespace Cluster

open Transition
open Solana (Accounts AccountInfo Account Deployed)
open Solana.Cluster (programId splTokenId loaderId mint vault userToken payer stored tokenData
  signer writable addressIn addressesOf addressIn_mem)

/-- The mint of the hub. -/
def hubMint : Pubkey := 0x4b

/-- The vault of the hub. -/
def hubVault : Pubkey := 0x4c

/-- The deployer's account of the hub. -/
def hubToken : Pubkey := 0x4d

/-- The seeds of the runs, with their addresses. -/
def addresses : List (List Bytes × Pubkey) :=
  [(poolSeeds, 0x7f854dd569df047d245bd713a1e5942a370d0bf4e3d1b3e7b37e9f88584e858c),
   (tokenSeeds hubMint, 0x3a4f65def63df2870a83d3d0c1a679a5488cb4cefd2917a1d1fb85e794929e87),
   (tokenSeeds mint, 0x4af648f47ff55cf0aac5103438cfce138e39d76e7f3f633e30c40fc9bebd3ce9),
   (vaultAuthoritySeeds, 0xa65e7a439fb8e5dd8575f2a7ee05649b02e2de665f8fcdc00004fa96bf4febbc)]

/-- `find_program_address` on the seeds of the runs. -/
def findProgramAddress (seeds : List Bytes) : Pubkey := addressIn addresses seeds

/-- The addresses that the program derives. -/
def isDerived (k : Pubkey) : Bool := (addressesOf addresses).contains k

/-- No record is where the pool is. -/
theorem find_tokenSeeds_ne (mint : Pubkey) :
    findProgramAddress (tokenSeeds mint) ≠ findProgramAddress poolSeeds := by
  have hpool : findProgramAddress poolSeeds =
      0x7f854dd569df047d245bd713a1e5942a370d0bf4e3d1b3e7b37e9f88584e858c := by decide +kernel
  have hnone : Solana.Cluster.noSeeds ≠
      0x7f854dd569df047d245bd713a1e5942a370d0bf4e3d1b3e7b37e9f88584e858c := by decide
  have hall : (addresses.all fun r => r.1.length != 2 ||
      r.2 != 0x7f854dd569df047d245bd713a1e5942a370d0bf4e3d1b3e7b37e9f88584e858c) = true := by
    decide +kernel
  rw [hpool, findProgramAddress, addressIn]
  rcases hf : addresses.find? fun r => r.1 == tokenSeeds mint with _ | r
  · rw [hf]
    exact hnone
  · rw [hf]
    have hseeds : r.1 = tokenSeeds mint := by simpa using List.find?_some hf
    have hr := List.all_eq_true.mp hall r (List.mem_of_find?_eq_some hf)
    rw [hseeds] at hr
    simpa [tokenSeeds] using hr

/-- A transfer of tokens that names their mint. -/
def splTransferChecked (source mintKey target authority : Pubkey) (signed : Bool) (amount : U64)
    (decimals : UInt8) (s : Accounts) : Option Accounts :=
  if (s mintKey).owner = splTokenId ∧ Solana.Cluster.unpackMint (s mintKey).data = some decimals ∧
      (stored (s source).data).map (fun t => t.mint) = some mintKey then
    Solana.Cluster.splTransfer source target authority signed amount s
  else none

/-- **The runtime of the cluster.** -/
def runtime : Runtime where
  toRuntime := { Solana.Cluster.runtime with findProgramAddress, isDerived }
  splTransferChecked

/-- The token program moves what it is asked to move here, too. -/
theorem moved_of_splTransfer {source target authority : Pubkey} {signed : Bool} {amount : U64}
    {s s' : Accounts} (h : Solana.Cluster.splTransfer source target authority signed amount s =
      some s') :
    (s source).owner = splTokenId ∧ (s target).owner = splTokenId ∧
      (∀ k, (s' k).owner = (s k).owner) ∧
      Solana.TokensMoved runtime.toRuntime source target amount s s' := by
  obtain ⟨hsource, htarget, howners, hmoved⟩ := Solana.Cluster.moved_of_splTransfer h
  exact ⟨hsource, htarget, howners, hmoved.lost, hmoved.gained, hmoved.self, hmoved.other⟩

/-- **The cluster keeps the rules of the runtime.** -/
theorem lawful : runtime.Lawful where
  toLawful := {
    isDerived := fun seeds => List.contains_iff_mem.mpr (addressIn_mem addresses seeds)
    programId_ne_systemId := Solana.Cluster.lawful.programId_ne_systemId
    programId_ne_splTokenId := Solana.Cluster.lawful.programId_ne_splTokenId
    systemId_ne_splTokenId := Solana.Cluster.lawful.systemId_ne_splTokenId
    systemTransfer := Solana.Cluster.lawful.systemTransfer
    systemAllocate := fun h =>
      have hfree := Solana.Cluster.lawful.systemAllocate h
      ⟨⟨hfree.1.owner, hfree.1.data⟩, hfree.2⟩
    systemAssign := Solana.Cluster.lawful.systemAssign
    splTransfer := moved_of_splTransfer }
  splTransferChecked := by
    intro source mintKey target authority signed amount decimals s s' h
    exact moved_of_splTransfer (Option.ite_none_right_eq_some.mp h).2

/-! ### The deployment -/

/-- A mint with some decimals. -/
def mintData (decimals : UInt8) : Bytes :=
  List.replicate 44 0 ++ [decimals, 1] ++ List.replicate 36 0

/-- The cluster after the deployment of the program. -/
def deployed : Accounts := fun k =>
  if k = hubMint then ⟨splTokenId, 1000000000, mintData 6⟩
  else if k = hubVault then
    ⟨splTokenId, 1000000000, tokenData hubMint (findProgramAddress vaultAuthoritySeeds) 0⟩
  else if k = hubToken then ⟨splTokenId, 1000000000, tokenData hubMint payer 2000000⟩
  else Solana.Cluster.deployed k

theorem deployed_deployed : Deployed runtime.toRuntime deployed where
  derived := by
    intro k hk
    have hall : (addressesOf addresses).all
        (fun k => (deployed k).owner == 0 && (deployed k).data == []) = true := by decide +kernel
    have hmem : k ∈ addressesOf addresses := List.contains_iff_mem.mp hk
    obtain ⟨howner, hdata⟩ := Bool.and_eq_true_iff.mp (List.all_eq_true.mp hall k hmem)
    exact ⟨beq_iff_eq.mp howner, beq_iff_eq.mp hdata⟩
  none := by
    intro k
    unfold deployed
    split
    · decide
    split
    · decide
    split
    · decide
    · exact Solana.Cluster.deployed_deployed.none k

/-- The account of some seeds. -/
def pda (seeds : List Bytes) : AccountInfo := writable (findProgramAddress seeds)

/-- The pool is made, with a cap of a tenth and a cooldown of an hour, and the other mint listed at
some price. -/
def listing (price : U128) : List Label :=
  [.instruction (some 1000)
      [pda poolSeeds, signer payer, writable hubMint, writable hubVault, pda (tokenSeeds hubMint),
        writable splTokenId, writable 0, writable programId,
        writable 0xe24507d712f2b144f3eb7937fa0f95a3b528a021667dd18c4a58ee9fcb9da817]
      (.init ⟨30, 1000, 3600, 0, 0⟩),
    .instruction (some 1000)
      [pda poolSeeds, signer payer, writable mint, writable vault, pda (tokenSeeds mint),
        writable splTokenId, writable 0]
      (.listToken price)]

/-- The price of that mint is moved. -/
def moving (now : Int64) (expected price : U128) : Label :=
  .instruction (some now) [pda poolSeeds, signer payer, pda (tokenSeeds mint)]
    (.setPriceFrom expected price)

end Cluster

end SolanaSwap

end SelendraBridge

import SelendraBridge.Basic

/-!
# The digests of a few strings

Every statement of this development is about an arbitrary hash function. Where a
statement is run on concrete inputs a hash function is needed that can be computed
in passing, and `SelendraBridge.digestOf` is one: a table of the `keccak256` digests
of exactly the strings those inputs hash. `SelendraBridge.recoverOf` is the same for
signatures: who `ECDSA.recover` finds behind the ones those inputs carry.
-/

namespace SelendraBridge

/-- The strings, as the numbers they spell in base 2²⁵⁶, with their `keccak256` digests. -/
def digests : List (List ℕ × ℕ) :=
  [([0x100000000000000000000000000000000000000aa],
    0xafdef99c1704a7d5f4cacc1c621cef270dae98e2ea1f2add9fa0fd4e7201018a),
   ([0x1000000000000000000000000000000000000000000,
     0xd0afdef99c1704a7d5f4cacc1c621cef270dae98e2ea,
     0x1f2add9fa0fd4e7201018a000000000000000000000000000000000000000000,
     0x1000000000000000000000000000000000000000000,
     0x2060000000000000000000000000000000000000000,
     0x3e800000000000000000000000000000000000000bb,
     0x0],
    0x9e8cb09615e2006ffc6af70c125561c4d19ec6dfdad8e85727bb98b29b609dce),
   ([0x60,
     0xa0,
     0x2b5ad5c4795c026514f8317c7a215e218dccd6cf,
     0x12,
     0x476174652e676f7665726e616e63652e76320000000000000000000000000000,
     0xc,
     0x61646456616c696461746f720000000000000000000000000000000000000000],
    0x4f572062868a5e8e0d521ca6b4468e42083d646f8ce0b37939659514501d0565),
   ([0x3,
     0x9e8cb09615e2006ffc6af70c125561c4d19ec6dfdad8e85727bb98b29b609dce],
    0xe68ff9905d5657cbb3da433399f28c5f6518d052f02768ab9665a0678c5e8f84),
   ([0x19457468657265756d205369676e6564204d6573736167653a0a3332,
     0xe68ff9905d5657cbb3da433399f28c5f6518d052f02768ab9665a0678c5e8f84],
    0x4af6a93993e1327716c8905070dcb7a18e0cf07a4e3d76954f94bd7867416525),
   ([0x2,
     0x9e8cb09615e2006ffc6af70c125561c4d19ec6dfdad8e85727bb98b29b609dce],
    0x56b23a88bb16ad6078ae791464c220746ffa5693e365d634ccb46105c92a350e),
   ([0x19457468657265756d205369676e6564204d6573736167653a0a3332,
     0x56b23a88bb16ad6078ae791464c220746ffa5693e365d634ccb46105c92a350e],
    0x853939609b419af94edf46d3d443acaf5024f6c0fd1a09ba821a163318eec130),
   ([0x1000000000000000000000000000000000000000000,
     0xd0afdef99c1704a7d5f4cacc1c621cef270dae98e2ea,
     0x1f2add9fa0fd4e7201018a000000000000000000000000000000000000000000,
     0x736f6c000000000000000000000000000000000000000000,
     0x1060000000000000000000000000000000000000000,
     0x3e800000000000000000000000000000000000000bb,
     0x0],
    0x47244110aaf9d1c13f4abbbbe0c593c200242fe818158d030c771f3b9590948a),
   ([0x3,
     0x47244110aaf9d1c13f4abbbbe0c593c200242fe818158d030c771f3b9590948a],
    0xd25699bd4be406c6c3675df2561bded40a6f971ea3e451d8179eba059d1457b5),
   ([0x19457468657265756d205369676e6564204d6573736167653a0a3332,
     0xd25699bd4be406c6c3675df2561bded40a6f971ea3e451d8179eba059d1457b5],
    0xd850751c5cc9acaf11688c0985593f0128b2e5422ea5d7821d830bfd3bf10317),
   ([0x79be667ef9dcbbac55a06295ce870b07029bfcdb2dce28d959f2815b16f81798,
     0x483ada7726a3c4655da4fbfc0e1108a8fd17b448a68554199c47d08ffb10d4b8],
    0xc0a6c424ac7157ae408398df7e5f4552091a69125d5dfcb7b8c2659029395bdf),
   ([0x67,
     0x6174652d676f7665726e616e63652d76323a72656769737465724173736574af,
     0xdef99c1704a7d5f4cacc1c621cef270dae98e2ea1f2add9fa0fd4e7201018a00,
     0x31700,
     0x7a06],
    0x9055a3d79c9407ca1a4afddf091713056718c27b200f95bf75659394879d208c),
   ([0x100,
     0xd0af,
     0xdef99c1704a7d5f4cacc1c621cef270dae98e2ea1f2add9fa0fd4e7201018a00,
     0x100,
     0x736f6c06,
     0x3e8,
     0x75,
     0x0],
    0x34841dd0aab539b7b90f1c5275dfb9dd898442d016e06a116402b21993e248b),
   ([0x19457468657265756d205369676e6564204d6573736167653a0a3332,
     0x34841dd0aab539b7b90f1c5275dfb9dd898442d016e06a116402b21993e248b],
    0x2a06c7b4439db31e46d1ed3d11a4db5b3842443349d71c2f00a7d2fbc3bb00a),
   ([0x1000000000000000000000000000000000000000000,
     0xd0afdef99c1704a7d5f4cacc1c621cef270dae98e2ea,
     0x1f2add9fa0fd4e7201018a000000000000000000000000000000000000000000,
     0x1000000000000000000000000000000000000000000,
     0x736f6c060000000000000000000000000000000000000000,
     0x1000000000000000000000000000000000000000000000000000000bb,
     0x0],
    0x638f72037f1106af03a437b89304c2db9bfd43047f0aa512d5779ea173e36097),
   ([0x19457468657265756d205369676e6564204d6573736167653a0a3332,
     0x9e8cb09615e2006ffc6af70c125561c4d19ec6dfdad8e85727bb98b29b609dce],
    0x766de2e5a370aa2c0327dfe954a03c02a67189b24c63eff6776a85f377003003),
   ([0xcc],
    0xaa8d9c947771632a645c67655595b61da72837bfa97f30f417dbaed82f2f11c3),
   ([0xee,
     0xcc,
     0x7],
    0x9d134aedcfe7c6a943f3d3f632df1370ea4aa7a0c73403c6336530c8712dded7),
   ([0xf5],
    0x881a506039e25a818f35aa0e3ec58c64df5c106245dc25ef6fa4cf1eb1aab56a),
   ([0x1000000000000000000000000000000000000000000,
     0xd0afdef99c1704a7d5f4cacc1c621cef270dae98e2ea,
     0x1f2add9fa0fd4e7201018a000000000000000000000000000000000000000000,
     0x1000000000000000000000000000000000000000000,
     0x2060000000000000000000000000000000000000000,
     0x3e800000000000000000000000000000000000000f7,
     0x0,
     0x0,
     0x0,
     0xaa8d9c947771632a645c67655595b61da72837bfa97f30f417dbaed82f2f11c3,
     0x9d134aedcfe7c6a943f3d3f632df1370ea4aa7a0c73403c6336530c8712dded7,
     0x881a506039e25a818f35aa0e3ec58c64df5c106245dc25ef6fa4cf1eb1aab56a],
    0x32abc93b9dd9823684bfbc4dbc1a9cfad32316944b0a106e490304896410cf73),
   ([0x3,
     0x32abc93b9dd9823684bfbc4dbc1a9cfad32316944b0a106e490304896410cf73],
    0xa6c6ec17d9cc363c4963352dd6b860310e5ac2f59961aaa3781cef913bb27b66),
   ([0x19457468657265756d205369676e6564204d6573736167653a0a3332,
     0xa6c6ec17d9cc363c4963352dd6b860310e5ac2f59961aaa3781cef913bb27b66],
    0xf1ecb70e85edba3f379d4ec5bbdf3f2f06857f791e687841f940fe3d6bc3f7a7),
   ([0xf7],
    0x7eb6fdadc6703ad64a7ccd5feddc788dc92efac7e066e01d5eb7176e91a6331d),
   ([0x1000000000000000000000000000000000000000000,
     0xd0c1dcc31f816a2daa2cdbf21d7ea9449bdbce4b6ee1,
     0x4634987001491bf95dac46000000000000000000000000000000000000000000,
     0x2000000000000000000000000000000000000000000,
     0x1060000000000000000000000000000000000000000,
     0x3e800000000000000000000000000000000000000f5,
     0x0,
     0x0,
     0x0,
     0xaa8d9c947771632a645c67655595b61da72837bfa97f30f417dbaed82f2f11c3,
     0x9d134aedcfe7c6a943f3d3f632df1370ea4aa7a0c73403c6336530c8712dded7,
     0x7eb6fdadc6703ad64a7ccd5feddc788dc92efac7e066e01d5eb7176e91a6331d],
    0x2df0a10af063bbab3a4eaf4dd7e7ac1d8872175e37387ea501a61dd73fac56f3),
   ([0x19457468657265756d205369676e6564204d6573736167653a0a3332,
     0x2df0a10af063bbab3a4eaf4dd7e7ac1d8872175e37387ea501a61dd73fac56f3],
    0x662db503dce835575362b36b02b3d943907f703f9df1db958ebb20d64d6a3084),
   ([0x1000000000000000000000000000000000000000000,
     0xd0c1dcc31f816a2daa2cdbf21d7ea9449bdbce4b6ee1,
     0x4634987001491bf95dac46000000000000000000000000000000000000000000,
     0x2000000000000000000000000000000000000000000,
     0x1060000000000000000000000000000000000000000,
     0x3e800000000000000000000000000000000000000f5,
     0x1,
     0x0,
     0x0,
     0xaa8d9c947771632a645c67655595b61da72837bfa97f30f417dbaed82f2f11c3,
     0x9d134aedcfe7c6a943f3d3f632df1370ea4aa7a0c73403c6336530c8712dded7,
     0x7eb6fdadc6703ad64a7ccd5feddc788dc92efac7e066e01d5eb7176e91a6331d],
    0xac41b40353bfd89709de3bcea86fab4e57097592f32d5cf56298812ff152748b),
   ([0x19457468657265756d205369676e6564204d6573736167653a0a3332,
     0xac41b40353bfd89709de3bcea86fab4e57097592f32d5cf56298812ff152748b],
    0x54f46fe39016b2fab466f0e10ad00f26d0c2eaabcd047db5d4810e1b88c64a9f),
   ([0x1000000000000000000000000000000000000000000,
     0xd0afdef99c1704a7d5f4cacc1c621cef270dae98e2ea,
     0x1f2add9fa0fd4e7201018a000000000000000000000000000000000000000000,
     0x1000000000000000000000000000000000000000000,
     0x2060000000000000000000000000000000000000000,
     0x3e800000000000000000000000000000000000000bb,
     0x1],
    0xd03a80d3773276d3c39c72ca36f517d8789b5778dde750f7db6f3d866b61c7e9)]

/-- `keccak256` on the strings of the table. -/
def digestOf (bs : Bytes) : Bytes32 :=
  let n := BigEndian.ofBytes bs
  BitVec.ofNat 256 (((digests.find? fun r =>
    r.1.foldl (fun m word => m * 2 ^ 256 + word) 0 = n).map Prod.snd).getD 0)

/-- What the table says of a string, when it has it. -/
theorem mem_digests_of_digestOf {bs : Bytes} (h : digestOf bs ≠ 0) :
    ∃ r ∈ digests, r.1.foldl (fun m word => m * 2 ^ 256 + word) 0 = BigEndian.ofBytes bs ∧
      digestOf bs = BitVec.ofNat 256 r.2 := by
  unfold digestOf at h ⊢
  dsimp only at h ⊢
  rcases hf : digests.find? fun r =>
    r.1.foldl (fun m word => m * 2 ^ 256 + word) 0 = BigEndian.ofBytes bs with _ | r
  · rw [hf] at h
    exact absurd rfl h
  · have hr := List.find?_some hf
    exact ⟨r, List.mem_of_find?_eq_some hf, of_decide_eq_true hr, by rw [hf]; rfl⟩

/-- Strings with one digest in the table spell one number. -/
theorem ofBytes_eq_of_digestOf_eq {bs cs : Bytes} (h : digestOf bs = digestOf cs)
    (hne : digestOf cs ≠ 0) : BigEndian.ofBytes bs = BigEndian.ofBytes cs := by
  have hinj : ∀ r ∈ digests, ∀ r' ∈ digests,
      BitVec.ofNat 256 r.2 = BitVec.ofNat 256 r'.2 → r.1 = r'.1 := by decide +kernel
  obtain ⟨r, hr, hbs, hd⟩ := mem_digests_of_digestOf (h ▸ hne)
  obtain ⟨r', hr', hcs, hd'⟩ := mem_digests_of_digestOf hne
  rw [← hbs, ← hcs, hinj r hr r' hr' (hd.symm.trans (h.trans hd'))]

/-- **The table does not collide**: strings of one length with one digest in it are equal. -/
theorem eq_of_digestOf_eq {bs cs : Bytes} (hlen : bs.length = cs.length)
    (h : digestOf bs = digestOf cs) (hne : digestOf cs ≠ 0) : bs = cs := by
  rw [← BigEndian.toBytes_ofBytes bs, ← BigEndian.toBytes_ofBytes cs,
    ofBytes_eq_of_digestOf_eq h hne, hlen]

/-- Nor do strings of any length with the same word in front. -/
theorem eq_of_digestOf_wordBytes_eq {v : Bytes32} (hv : v ≠ 0) {xs ys : Bytes}
    (h : digestOf (wordBytes v ++ xs) = digestOf (wordBytes v ++ ys))
    (hne : digestOf (wordBytes v ++ ys) ≠ 0) : xs = ys := by
  have hnum := ofBytes_eq_of_digestOf_eq h hne
  have hfront : BigEndian.ofBytes (wordBytes v) ≠ 0 := by
    have hlt : v.toNat < 256 ^ 32 := v.isLt
    rw [wordBytes, BigEndian.ofWord, BigEndian.ofBytes_toBytes, Nat.mod_eq_of_lt hlt]
    exact fun h0 => hv (BitVec.eq_of_toNat_eq h0)
  have hle := BigEndian.length_le_of_ofBytes_eq hfront hnum
  have hge := BigEndian.length_le_of_ofBytes_eq hfront hnum.symm
  exact List.append_cancel_left (eq_of_digestOf_eq (by simp; omega) h hne)

/-- A signature over a digest, with who made it. -/
structure Signed where
  digest : ℕ
  r : ℕ
  s : ℕ
  v : ℕ
  signer : ℕ

/-- The 65 bytes of a signature. -/
def signatureBytes (r s v : ℕ) : Bytes :=
  BigEndian.toBytes 32 r ++ (BigEndian.toBytes 32 s ++ BigEndian.toBytes 1 v)

/-- Signatures of the validators of the concrete runs. -/
def signatures : List Signed :=
  [⟨0x4af6a93993e1327716c8905070dcb7a18e0cf07a4e3d76954f94bd7867416525,
    0x3a4efaf4e8eb882166202ecdb7c25f37ff0ead6e727c84db91bb2d85cc303818,
    0x41d36cf927ac5890844783367229dc623872782496d6564dc293f25684599b60, 28,
    0x7e5f4552091a69125d5dfcb7b8c2659029395bdf⟩,
   ⟨0x853939609b419af94edf46d3d443acaf5024f6c0fd1a09ba821a163318eec130,
    0xa7cdf84e4ab86d4a010dfaec39d1bc7b35f109fb29a3eef86d9215314f8a9935,
    0x74e507999f7db4a7424c2857307f5cf7a237b6b50be6d4ca5613281a43617baf, 28,
    0x7e5f4552091a69125d5dfcb7b8c2659029395bdf⟩,
   ⟨0xd850751c5cc9acaf11688c0985593f0128b2e5422ea5d7821d830bfd3bf10317,
    0xbc3361f376cd00b159850c1909d28908f7a093aa511721313418a25e88fc28da,
    0x3561c60ed15eb57cbb7b222dcb6d273f2383218ed33a20cfac8296d74bdb40f4, 28,
    0x7e5f4552091a69125d5dfcb7b8c2659029395bdf⟩,
   ⟨0x2a06c7b4439db31e46d1ed3d11a4db5b3842443349d71c2f00a7d2fbc3bb00a,
    0xa7109be0d6e007cde314af4cb9fe83a54fbf70478b6bae68031afad22d72fdbc,
    0x750efd85fa431460b9e6a286f5ad53b7a0b32d48de056622701e375fe11fab2f, 28,
    0x7e5f4552091a69125d5dfcb7b8c2659029395bdf⟩,
   ⟨0x766de2e5a370aa2c0327dfe954a03c02a67189b24c63eff6776a85f377003003,
    0x4bbc4a7da0b489b76a923cb98bdac739cfab341d1ae1e64b30a1b543eeae17f6,
    0x25d001c1c6ba658846a8b2f4a1455af5030fa187b0a1a39f0b3657a7c8641362, 27,
    0x7e5f4552091a69125d5dfcb7b8c2659029395bdf⟩,
   ⟨0xf1ecb70e85edba3f379d4ec5bbdf3f2f06857f791e687841f940fe3d6bc3f7a7,
    0xe347995d6f1e946d9f88f10f158291eb65d17f41931d98cf24a1b7eed92da73e,
    0x628256bf2ffb32d8687c138f8c1c1cc1ed012957b4e690c927110a0ff554f061, 27,
    0x7e5f4552091a69125d5dfcb7b8c2659029395bdf⟩,
   ⟨0x662db503dce835575362b36b02b3d943907f703f9df1db958ebb20d64d6a3084,
    0x3515befe8dbb8159e1cdcaf97644f9338c148b1b80bb2a7010e44ff6222ed8a4,
    0x48c3a71637cbfe74131fdf8fc3f84cdae77e2b8ff4b0e8ee500d8de291398816, 27,
    0x7e5f4552091a69125d5dfcb7b8c2659029395bdf⟩,
   ⟨0x54f46fe39016b2fab466f0e10ad00f26d0c2eaabcd047db5d4810e1b88c64a9f,
    0xfc15b066a5e43466338812c8d1def3c8083b5a2e98a1b5c084a8151272040c03,
    0x301962f7f21f1a7125d10054e8bfcc75ae7fb231cf92b5503612cbad4e86d2bd, 27,
    0x7e5f4552091a69125d5dfcb7b8c2659029395bdf⟩]

/-- `ECDSA.recover` on the signatures of the table. -/
def recoverOf (digest : Bytes32) (signature : Bytes) : Option Address :=
  (signatures.find? fun x =>
    x.digest = digest.toNat ∧ signatureBytes x.r x.s x.v = signature).map
      fun x => BitVec.ofNat 160 x.signer

end SelendraBridge

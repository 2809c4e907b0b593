import AveroWallet.Validation

set_option autoImplicit false

/- The output-building loop of `WalletModel::sendCoins` (lines 269-396). A recipient whose
`typeInd` is `AT_Stealth` and whose address decodes as a stealth address is paid to a
one-time key and followed by a data-carrier output; every other recipient is paid to its
decoded address and followed by an unencrypted narration output when it has a narration. -/
namespace AveroWallet

/-- What the loop carries from one recipient to the next: `vecSend`, `mapStealthNarr` (a
`std::map` kept as its sorted entries) and the number of `GenerateRandomSecret` calls made. -/
structure SendLoop where
  vecSend : List (CScript × Int64)
  mapStealthNarr : List (Nat × String)
  randomDraws : Nat

/-- The keys one stealth payment derives: the shared secret, the hash of the one-time key
it pays (`ckidTo`) and the ephemeral public key. -/
structure StealthKeys where
  secretShared : EcSecret
  keyID : Bytes
  ephemPubkey : EcPoint

/-- Lines 285-312: draw the ephemeral secret, agree on a shared secret and a one-time key
with the scan and spend keys, check that key, and compute the ephemeral public key. Each
failure returns `Aborted`. -/
def stealthKeys (ops : StealthOps) (sxAddr : CStealthAddress) (draw : Nat) :
    Option StealthKeys := do
  let ephemSecret ← ops.generateRandomSecret draw
  let (secretShared, pkSendTo) ←
    ops.stealthSecret ephemSecret sxAddr.scanPubkey sxAddr.spendPubkey
  guard (ops.pubKeyIsValid pkSendTo)
  let ephemPubkey ← ops.secretToPublicKey ephemSecret
  pure ⟨secretShared, ops.pubKeyGetID pkSendTo, ephemPubkey⟩

/-- The two bytes `'n' 'p'` that tag an unencrypted narration. -/
def narrationTag : Bytes := [110, 112]

/-- Lines 279-364, for a recipient whose address decoded to `sxAddr`. -/
def stealthOutputs (ops : StealthOps) (rcp : SendCoinsRecipient) (sxAddr : CStealthAddress)
    (loop : SendLoop) : Except SendCoinsReturn SendLoop :=
  match stealthKeys ops sxAddr loop.randomDraws with
  | none => .error StatusCode.aborted
  | some keys =>
    let vecSend := loop.vecSend ++ [(setDestination (.keyID keys.keyID), rcp.amount)]
    let scriptP : CScript := [.op .opReturn, .push keys.ephemPubkey]
    let randomDraws := loop.randomDraws + 1
    if rcp.narration.length > 0 then
      let sNarr := rcp.narration
      if sNarr.utf8ByteSize > 24 then .error StatusCode.narrationTooLong
      else
        match ops.encrypt keys.secretShared keys.ephemPubkey sNarr with
        | none => .error StatusCode.aborted
        | some vchNarr =>
          if vchNarr.length > 48 then .error StatusCode.aborted
          else
            let scriptP :=
              if vchNarr.length > 0 then scriptP ++ [.op .opReturn, .push vchNarr] else scriptP
            let pos := vecSend.length - 1
            .ok ⟨vecSend ++ [(scriptP, 0)], mapAssign loop.mapStealthNarr pos sNarr, randomDraws⟩
    else .ok ⟨vecSend ++ [(scriptP, 0)], loop.mapStealthNarr, randomDraws⟩

/-- Lines 368-395: pay the decoded address, then `OP_RETURN "np" OP_RETURN narration`. -/
def standardOutputs (codec : AddressCodec) (rcp : SendCoinsRecipient) (loop : SendLoop) :
    Except SendCoinsReturn SendLoop :=
  let vecSend :=
    loop.vecSend ++ [(setDestination (codec.bitcoinAddress rcp.address).Get, rcp.amount)]
  if rcp.narration.length > 0 then
    let sNarr := rcp.narration
    if sNarr.utf8ByteSize > 24 then .error StatusCode.narrationTooLong
    else
      let vNarr : Bytes := sNarr.toUTF8.data.toList
      let scriptN : CScript := [.op .opReturn, .push narrationTag, .op .opReturn, .push vNarr]
      .ok { loop with vecSend := vecSend ++ [(scriptN, 0)] }
  else .ok { loop with vecSend := vecSend }

/-- One pass of the loop (lines 272-395): a failed `SetEncoded` drops through to the
standard outputs. -/
def addRecipientOutputs (env : SendEnv) (rcp : SendCoinsRecipient) (loop : SendLoop) :
    Except SendCoinsReturn SendLoop :=
  if rcp.typeInd = env.atStealth then
    match env.codec.setEncoded rcp.address with
    | some sxAddr => stealthOutputs env.stealth rcp sxAddr loop
    | none => standardOutputs env.codec rcp loop
  else standardOutputs env.codec rcp loop

/-- The loop over the recipients (lines 270-396). -/
def buildVecSend (env : SendEnv) : List SendCoinsRecipient → SendLoop →
    Except SendCoinsReturn SendLoop
  | [], loop => .ok loop
  | rcp :: rest, loop =>
    match addRecipientOutputs env rcp loop with
    | .error status => .error status
    | .ok loop => buildVecSend env rest loop

/-! ## The shape of the outputs -/

/-- The recipient takes the stealth branch: `typeInd` is `AT_Stealth` and `SetEncoded`
succeeds. -/
def StealthBranch (env : SendEnv) (rcp : SendCoinsRecipient) : Prop :=
  rcp.typeInd = env.atStealth ∧ (env.codec.setEncoded rcp.address).isSome = true

instance (env : SendEnv) (rcp : SendCoinsRecipient) : Decidable (StealthBranch env rcp) :=
  inferInstanceAs (Decidable (_ ∧ _))

/-- A stealth recipient with a narration: the ones `mapStealthNarr` records. -/
def NarratedStealth (env : SendEnv) (rcp : SendCoinsRecipient) : Prop :=
  StealthBranch env rcp ∧ rcp.narration ≠ ""

instance (env : SendEnv) (rcp : SendCoinsRecipient) : Decidable (NarratedStealth env rcp) :=
  inferInstanceAs (Decidable (_ ∧ _))

/-- The data-carrier script of a stealth payment: `OP_RETURN ephem_pubkey`, then
`OP_RETURN ciphertext` when the ciphertext is not empty. -/
def stealthDataScript (ephemPubkey : EcPoint) (cipher : Bytes) : CScript :=
  [.op .opReturn, .push ephemPubkey] ++
    if cipher.length > 0 then [.op .opReturn, .push cipher] else []

/-- The unencrypted narration output of a standard payment, when there is a narration. -/
def narrationOutputs (narration : String) : List (CScript × Int64) :=
  if narration = "" then []
  else [([.op .opReturn, .push narrationTag, .op .opReturn,
    .push narration.toUTF8.data.toList], 0)]

/-- The outputs one recipient adds to `vecSend`. A stealth recipient: the payment to the
one-time key derived from some random draw, then the data carrier holding the ephemeral key
and the ciphertext of the narration. Any other: the payment to the decoded address, then the
narration output. -/
inductive RecipientBlock (env : SendEnv) (rcp : SendCoinsRecipient) :
    List (CScript × Int64) → Prop
  | stealth (sxAddr : CStealthAddress) (draw : Nat) (keys : StealthKeys) (cipher : Bytes)
      (typed : rcp.typeInd = env.atStealth)
      (decoded : env.codec.setEncoded rcp.address = some sxAddr)
      (derived : stealthKeys env.stealth sxAddr draw = some keys)
      (encrypted : if rcp.narration = "" then cipher = [] else
        env.stealth.encrypt keys.secretShared keys.ephemPubkey rcp.narration = some cipher) :
      RecipientBlock env rcp [(setDestination (.keyID keys.keyID), rcp.amount),
        (stealthDataScript keys.ephemPubkey cipher, 0)]
  | standard (fallsThrough : ¬ StealthBranch env rcp) :
      RecipientBlock env rcp
        ((setDestination (env.codec.bitcoinAddress rcp.address).Get, rcp.amount) ::
          narrationOutputs rcp.narration)

theorem length_pos_iff_ne_empty (text : String) : text.length > 0 ↔ text ≠ "" := by
  rcases text with ⟨_ | ⟨c, cs⟩⟩
  · simp
  · simp only [String.length, List.length_cons, gt_iff_lt, Nat.succ_pos, ne_eq, true_iff]
    exact fun same => List.cons_ne_nil c cs (congrArg String.data same)

@[simp] theorem utf8ByteSize_empty : "".utf8ByteSize = 0 := rfl

theorem standardOutputs_ok {codec : AddressCodec} {rcp : SendCoinsRecipient}
    {loop loop' : SendLoop} (ok : standardOutputs codec rcp loop = .ok loop') :
    loop' = { loop with vecSend := loop.vecSend ++
        (setDestination (codec.bitcoinAddress rcp.address).Get, rcp.amount) ::
          narrationOutputs rcp.narration } ∧
      rcp.narration.utf8ByteSize ≤ 24 := by
  unfold standardOutputs at ok
  by_cases empty : rcp.narration = ""
  · have short : ¬ rcp.narration.length > 0 := by
      rw [length_pos_iff_ne_empty]; exact not_not.mpr empty
    simp only [short, ↓reduceIte, Except.ok.injEq] at ok
    simp [← ok, narrationOutputs, empty]
  · have long : rcp.narration.length > 0 := (length_pos_iff_ne_empty _).mpr empty
    simp only [long, ↓reduceIte] at ok
    split_ifs at ok with tooLong
    cases ok
    simp [narrationOutputs, empty]
    omega

theorem stealthOutputs_ok {ops : StealthOps} {rcp : SendCoinsRecipient}
    {sxAddr : CStealthAddress} {loop loop' : SendLoop}
    (ok : stealthOutputs ops rcp sxAddr loop = .ok loop') :
    ∃ keys cipher, stealthKeys ops sxAddr loop.randomDraws = some keys ∧
      (if rcp.narration = "" then cipher = [] else
        ops.encrypt keys.secretShared keys.ephemPubkey rcp.narration = some cipher) ∧
      loop'.vecSend = loop.vecSend ++ [(setDestination (.keyID keys.keyID), rcp.amount),
        (stealthDataScript keys.ephemPubkey cipher, 0)] ∧
      loop'.mapStealthNarr = (if rcp.narration = "" then loop.mapStealthNarr
        else mapAssign loop.mapStealthNarr loop.vecSend.length rcp.narration) ∧
      rcp.narration.utf8ByteSize ≤ 24 := by
  unfold stealthOutputs at ok
  split at ok
  · cases ok
  · rename_i keys derived
    by_cases empty : rcp.narration = ""
    · have short : ¬ rcp.narration.length > 0 := by
        rw [length_pos_iff_ne_empty]; exact not_not.mpr empty
      simp only [short, ↓reduceIte, Except.ok.injEq] at ok
      subst ok
      exact ⟨keys, [], derived, by simp [empty], by simp [stealthDataScript], by simp [empty],
        by simp [empty]⟩
    · have long : rcp.narration.length > 0 := (length_pos_iff_ne_empty _).mpr empty
      simp only [long, ↓reduceIte] at ok
      split_ifs at ok with tooLong
      split at ok
      · cases ok
      · rename_i vchNarr encrypted
        split_ifs at ok with tooLongCipher nonempty <;> cases ok <;>
          refine ⟨keys, vchNarr, derived, by simp [empty, encrypted], ?_, by simp [empty],
            by omega⟩ <;>
          simp [stealthDataScript, nonempty]

theorem addRecipientOutputs_ok {env : SendEnv} {rcp : SendCoinsRecipient} {loop loop' : SendLoop}
    (ok : addRecipientOutputs env rcp loop = .ok loop') :
    ∃ block, RecipientBlock env rcp block ∧ loop'.vecSend = loop.vecSend ++ block ∧
      loop'.mapStealthNarr = (if NarratedStealth env rcp then
        mapAssign loop.mapStealthNarr loop.vecSend.length rcp.narration
        else loop.mapStealthNarr) ∧
      rcp.narration.utf8ByteSize ≤ 24 := by
  have standard (fallsThrough : ¬ StealthBranch env rcp)
      (ok : standardOutputs env.codec rcp loop = .ok loop') : ∃ block, RecipientBlock env rcp block ∧
        loop'.vecSend = loop.vecSend ++ block ∧
        loop'.mapStealthNarr = (if NarratedStealth env rcp then
          mapAssign loop.mapStealthNarr loop.vecSend.length rcp.narration
          else loop.mapStealthNarr) ∧
        rcp.narration.utf8ByteSize ≤ 24 := by
    obtain ⟨rfl, short⟩ := standardOutputs_ok ok
    exact ⟨_, .standard fallsThrough, rfl, by simp [NarratedStealth, fallsThrough], short⟩
  unfold addRecipientOutputs at ok
  split_ifs at ok with typed
  · split at ok
    · rename_i sxAddr decoded
      obtain ⟨keys, cipher, derived, encrypted, vecSend, narr, short⟩ := stealthOutputs_ok ok
      have branch : StealthBranch env rcp := ⟨typed, by simp [decoded]⟩
      refine ⟨_, .stealth sxAddr loop.randomDraws keys cipher typed decoded derived encrypted,
        vecSend, ?_, short⟩
      by_cases empty : rcp.narration = "" <;> simp [narr, NarratedStealth, branch, empty]
    · exact standard (fun branch => by simp_all [StealthBranch]) ok
  · exact standard (fun branch => typed branch.1) ok

/-- The number of outputs a recipient adds to `vecSend`. -/
def blockLength (env : SendEnv) (rcp : SendCoinsRecipient) : Nat :=
  if StealthBranch env rcp then 2 else if rcp.narration = "" then 1 else 2

theorem blockLength_pos (env : SendEnv) (rcp : SendCoinsRecipient) : 0 < blockLength env rcp := by
  unfold blockLength; split_ifs <;> omega

theorem RecipientBlock.length_eq {env : SendEnv} {rcp : SendCoinsRecipient}
    {block : List (CScript × Int64)} (shape : RecipientBlock env rcp block) :
    block.length = blockLength env rcp := by
  cases shape with
  | stealth sxAddr draw keys cipher typed decoded =>
    simp [blockLength, StealthBranch, typed, decoded]
  | standard fallsThrough =>
    by_cases empty : rcp.narration = "" <;> simp [blockLength, fallsThrough, empty, narrationOutputs]

/-- Each recipient with the index of its payment output in `vecSend`, the first at `pos`:
the outputs of the recipients before it come first. -/
def paymentPositions (env : SendEnv) :
    List SendCoinsRecipient → Nat → List (SendCoinsRecipient × Nat)
  | [], _ => []
  | rcp :: rest, pos => (rcp, pos) :: paymentPositions env rest (pos + blockLength env rcp)

/-- The loop run to the end: `vecSend` grows by one block per recipient in order,
`mapStealthNarr` gains the payment position and narration of each narrated stealth
recipient, and every narration has at most 24 bytes. -/
theorem buildVecSend_ok {env : SendEnv} {recipients : List SendCoinsRecipient}
    {loop loop' : SendLoop} (below : ∀ entry ∈ loop.mapStealthNarr, entry.1 < loop.vecSend.length)
    (built : buildVecSend env recipients loop = .ok loop') :
    ∃ blocks, List.Forall₂ (RecipientBlock env) recipients blocks ∧
      loop'.vecSend = loop.vecSend ++ blocks.flatten ∧
      loop'.mapStealthNarr = loop.mapStealthNarr ++
        ((paymentPositions env recipients loop.vecSend.length).filter
          (fun p => NarratedStealth env p.1)).map (fun p => (p.2, p.1.narration)) ∧
      ∀ rcp ∈ recipients, rcp.narration.utf8ByteSize ≤ 24 := by
  induction recipients generalizing loop with
  | nil =>
    cases built
    exact ⟨[], .nil, by simp, by simp [paymentPositions], by simp⟩
  | cons rcp rest ih =>
    unfold buildVecSend at built
    split at built
    · cases built
    · rename_i loop₁ step
      obtain ⟨block, shape, vecSend, narr, short⟩ := addRecipientOutputs_ok step
      have grown : loop₁.vecSend.length = loop.vecSend.length + blockLength env rcp := by
        simp [vecSend, shape.length_eq]
      have appended : loop₁.mapStealthNarr = loop.mapStealthNarr ++
          if NarratedStealth env rcp then [(loop.vecSend.length, rcp.narration)] else [] := by
        rw [narr]
        split_ifs
        · exact mapAssign_of_lt _ _ _ below
        · simp
      have below₁ : ∀ entry ∈ loop₁.mapStealthNarr, entry.1 < loop₁.vecSend.length := by
        have longer : loop.vecSend.length < loop₁.vecSend.length := by
          rw [grown]; exact Nat.lt_add_of_pos_right (blockLength_pos env rcp)
        intro entry mem
        rw [appended, List.mem_append] at mem
        rcases mem with old | new
        · exact (below entry old).trans longer
        · split_ifs at new
          · rw [List.mem_singleton.mp new]; exact longer
          · cases new
      obtain ⟨blocks, layout, vecSend', narr', short'⟩ := ih below₁ built
      refine ⟨block :: blocks, .cons shape layout, by simp [vecSend', vecSend], ?_, ?_⟩
      · rw [narr', appended, grown]
        by_cases narrated : NarratedStealth env rcp <;> simp [paymentPositions, narrated]
      · simpa [short] using short'

theorem RecipientBlock.head?_eq {env : SendEnv} {rcp : SendCoinsRecipient}
    {block : List (CScript × Int64)} (shape : RecipientBlock env rcp block) :
    ∃ dest, block.head? = some (setDestination dest, rcp.amount) ∧
      (StealthBranch env rcp → ∃ sxAddr draw keys,
        env.codec.setEncoded rcp.address = some sxAddr ∧
        stealthKeys env.stealth sxAddr draw = some keys ∧ dest = .keyID keys.keyID) ∧
      (¬ StealthBranch env rcp → dest = (env.codec.bitcoinAddress rcp.address).Get) := by
  cases shape with
  | stealth sxAddr draw keys cipher typed decoded derived =>
    refine ⟨_, rfl, fun _ => ⟨sxAddr, draw, keys, decoded, derived, rfl⟩, fun fallsThrough => ?_⟩
    exact absurd ⟨typed, by simp [decoded]⟩ fallsThrough
  | standard fallsThrough => exact ⟨_, rfl, fun branch => absurd branch fallsThrough, fun _ => rfl⟩

/-- In `pre ++ blocks.flatten`, the output at each recipient's payment position is the first
output of that recipient's block. -/
theorem getElem?_paymentPositions {env : SendEnv} {recipients : List SendCoinsRecipient}
    {blocks : List (List (CScript × Int64))}
    (layout : List.Forall₂ (RecipientBlock env) recipients blocks) (pre : List (CScript × Int64)) :
    ∀ p ∈ paymentPositions env recipients pre.length,
      ∃ block, RecipientBlock env p.1 block ∧ (pre ++ blocks.flatten)[p.2]? = block.head? := by
  induction layout generalizing pre with
  | nil => simp [paymentPositions]
  | @cons rcp block rest blocks shape _ ih =>
    intro p mem
    simp only [paymentPositions, List.mem_cons] at mem
    rcases mem with rfl | mem
    · obtain ⟨dest, head, -⟩ := shape.head?_eq
      refine ⟨block, shape, ?_⟩
      cases block with
      | nil => cases head
      | cons out outs => rw [List.getElem?_append_right (le_refl _), Nat.sub_self]; simp
    · obtain ⟨found, found_shape, found_at⟩ :=
        ih (pre ++ block) p (by rwa [List.length_append, shape.length_eq])
      exact ⟨found, found_shape, by simpa using found_at⟩

/-- A block pays the recipient's amount first; every other output of it has value 0. -/
theorem RecipientBlock.values_eq {env : SendEnv} {rcp : SendCoinsRecipient}
    {block : List (CScript × Int64)} (shape : RecipientBlock env rcp block) :
    ∃ zeros, block.map (·.2) = rcp.amount :: List.replicate zeros 0 := by
  cases shape with
  | stealth => exact ⟨1, rfl⟩
  | standard =>
    unfold narrationOutputs
    split_ifs
    · exact ⟨0, rfl⟩
    · exact ⟨1, rfl⟩

theorem le_of_mem_paymentPositions {env : SendEnv} {recipients : List SendCoinsRecipient}
    {pos : Nat} {p : SendCoinsRecipient × Nat} (mem : p ∈ paymentPositions env recipients pos) :
    pos ≤ p.2 := by
  induction recipients generalizing pos with
  | nil => cases mem
  | cons rcp rest ih =>
    simp only [paymentPositions, List.mem_cons] at mem
    rcases mem with rfl | mem
    · exact le_refl _
    · have := ih mem; omega

/-- Payment positions strictly increase along the recipients. -/
theorem paymentPositions_pairwise (env : SendEnv) (recipients : List SendCoinsRecipient)
    (pos : Nat) : (paymentPositions env recipients pos).Pairwise (fun a b => a.2 < b.2) := by
  induction recipients generalizing pos with
  | nil => exact .nil
  | cons rcp rest ih =>
    refine .cons (fun p mem => ?_) (ih _)
    have := le_of_mem_paymentPositions mem
    have := blockLength_pos env rcp
    simp only
    omega

end AveroWallet

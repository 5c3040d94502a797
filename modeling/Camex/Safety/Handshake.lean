import Camex.Concrete
import Camex.NoiseHandshake

/-!
# The handshake is complete, and both sides agree

* `NoisePrims.Lawful`: decryption inverts encryption, Diffie-Hellman commutes;
* `SameTranscript`: both sides have the same `h`, `ck` and cipher state; what one side mixes into it when it writes
  a message the other side mixes in when it reads it (`message1_agrees`, `message2_agrees`);
* `plainReadMsg1`: the responder's side of message 1 as the protocol has it, with a DH result of its own;
  `keyTrials_plain`: the key loop of the server finds the first key with which that reads the message.
-/

namespace Camex

open Lib

variable {n : ℕ} {P : NoisePrims}

structure NoisePrims.Lawful (P : NoisePrims) : Prop where
  decrypt_encrypt : ∀ key n ad plain, P.decrypt key n ad (P.encrypt key n ad plain) = some plain
  length_encrypt : ∀ key n ad plain, (P.encrypt key n ad plain).length = plain.length + NOISE_TAGLEN
  dh_comm : ∀ a b, P.x25519 a (P.publicKey b) = P.x25519 b (P.publicKey a)

/-! ## The transcript -/

structure SameTranscript (i r : NoiseHs) : Prop where
  h : i.h = r.h
  ck : i.ck = r.ck
  cs : i.cs = r.cs

/-- What else a side keeps: its keys and its role. -/
structure SameKeys (hs hs' : NoiseHs) : Prop where
  sPriv : hs'.sPriv = hs.sPriv
  sPub : hs'.sPub = hs.sPub
  ePriv : hs'.ePriv = hs.ePriv
  ePub : hs'.ePub = hs.ePub
  re : hs'.re = hs.re
  initiator : hs'.initiator = hs.initiator

theorem SameKeys.trans {a b c : NoiseHs} (h : SameKeys a b) (h' : SameKeys b c) : SameKeys a c :=
  ⟨h'.sPriv.trans h.sPriv, h'.sPub.trans h.sPub, h'.ePriv.trans h.ePriv, h'.ePub.trans h.ePub, h'.re.trans h.re,
    h'.initiator.trans h.initiator⟩

section Mix

variable {i r : NoiseHs}

theorem mixHash_sameKeys (hs : NoiseHs) (data : Bytes) : SameKeys hs (mixHash P hs data) := ⟨rfl, rfl, rfl, rfl, rfl, rfl⟩

theorem mixKey_sameKeys (hs : NoiseHs) (ikm : Bytes) : SameKeys hs (mixKey P hs ikm) := ⟨rfl, rfl, rfl, rfl, rfl, rfl⟩

theorem mixEphemeral_sameKeys (hs : NoiseHs) (seed : Key) :
    SameKeys { hs with ePriv := seed, ePub := P.publicKey seed } (mixEphemeral P hs seed) :=
  (mixHash_sameKeys _ _).trans (mixKey_sameKeys _ _)

theorem mixRemote_sameKeys (hs : NoiseHs) (msg : Bytes) :
    SameKeys { hs with re := keyOfBytes (msg.take NOISE_DHLEN) } (mixRemote P hs msg) :=
  (mixHash_sameKeys _ _).trans (mixKey_sameKeys _ _)

theorem encryptAndHash_sameKeys (hs : NoiseHs) (plain : Bytes) : SameKeys hs (encryptAndHash P hs plain).1 :=
  ⟨rfl, rfl, rfl, rfl, rfl, rfl⟩

theorem decryptAndHash_sameKeys (hs : NoiseHs) (input : Bytes) : SameKeys hs (decryptAndHash P hs input).1 := by
  unfold decryptAndHash
  dsimp only
  split <;> exact ⟨rfl, rfl, rfl, rfl, rfl, rfl⟩

theorem SameTranscript.mixHash (ht : SameTranscript i r) (data : Bytes) :
    SameTranscript (mixHash P i data) (mixHash P r data) :=
  ⟨by simp only [Camex.mixHash, ht.h], ht.ck, ht.cs⟩

theorem SameTranscript.mixKey (ht : SameTranscript i r) (ikm : Bytes) :
    SameTranscript (mixKey P i ikm) (mixKey P r ikm) :=
  ⟨by simp only [Camex.mixKey, ht.h], by simp only [Camex.mixKey, ht.ck], by simp only [Camex.mixKey, ht.ck]⟩

theorem SameTranscript.mixKeyAndHash (ht : SameTranscript i r) (ikm : Bytes) :
    SameTranscript (mixKeyAndHash P i ikm) (mixKeyAndHash P r ikm) :=
  ⟨by simp only [Camex.mixKeyAndHash, Camex.mixHash, ht.ck, ht.h],
    by simp only [Camex.mixKeyAndHash, Camex.mixHash, ht.ck], by simp only [Camex.mixKeyAndHash, ht.ck]⟩

theorem take_keyBytes (k : Key) (rest : Bytes) : keyOfBytes ((keyBytes k ++ rest).take NOISE_DHLEN) = k := by
  rw [List.take_left' (show (keyBytes k).length = NOISE_DHLEN from keyBytes_length k), keyOfBytes_keyBytes]

/-- One side's ephemeral key is the other side's remote one. -/
theorem SameTranscript.ephemeral (ht : SameTranscript i r) (seed : Key) (rest : Bytes) :
    SameTranscript (mixEphemeral P i seed) (mixRemote P r (keyBytes (P.publicKey seed) ++ rest)) := by
  have hsame : SameTranscript { i with ePriv := seed, ePub := P.publicKey seed }
      { r with re := P.publicKey seed } := ⟨ht.h, ht.ck, ht.cs⟩
  unfold mixEphemeral mixRemote
  dsimp only
  rw [take_keyBytes]
  exact (hsame.mixHash _).mixKey _

theorem mixRemote_re (seed : Key) (rest : Bytes) :
    (mixRemote P r (keyBytes (P.publicKey seed) ++ rest)).re = P.publicKey seed := by
  rw [(mixRemote_sameKeys _ _).re]
  exact take_keyBytes _ _

/-- What one side encrypts the other side decrypts, and both hash the ciphertext. -/
theorem SameTranscript.encrypt (hP : P.Lawful) (ht : SameTranscript i r) (plain : Bytes) :
    (decryptAndHash P r (encryptAndHash P i plain).2).2 = some plain ∧
      SameTranscript (encryptAndHash P i plain).1 (decryptAndHash P r (encryptAndHash P i plain).2).1 := by
  have hopen : P.decrypt r.cs.k r.cs.n (hashBytes r.h) (encryptAndHash P i plain).2 = some plain := by
    rw [← ht.h, ← ht.cs]
    exact hP.decrypt_encrypt _ _ _ _
  unfold decryptAndHash
  rw [hopen]
  refine ⟨rfl, ?_, ht.ck, ?_⟩
  · simp only [encryptAndHash, Camex.mixHash, ht.h]
  · simp only [encryptAndHash, Camex.mixHash, ht.cs]

theorem encryptAndHash_length (hP : P.Lawful) (hs : NoiseHs) (plain : Bytes) :
    (encryptAndHash P hs plain).2.length = plain.length + NOISE_TAGLEN := hP.length_encrypt _ _ _ _

end Mix

/-! ## The messages -/

section Messages

variable {i r : NoiseHs} {payload : Bytes} {outSize size : ℕ}

theorem noiseReadMsg1_of_some {psk es : Key} {msg : Bytes}
    (h : (readMsg1 P r psk es msg size).2 = some payload) :
    noiseReadMsg1 P r psk es msg size = ((readMsg1 P r psk es msg size).1, some payload) := by
  unfold noiseReadMsg1
  cases hread : readMsg1 P r psk es msg size with
  | mk t p =>
    rw [hread] at h
    cases h
    rfl

theorem noiseReadMsg2_of_some {msg : Bytes} (h : (readMsg2 P r msg size).2 = some payload) :
    noiseReadMsg2 P r msg size = ((readMsg2 P r msg size).1, some payload) := by
  unfold noiseReadMsg2
  cases hread : readMsg2 P r msg size with
  | mk t p =>
    rw [hread] at h
    cases h
    rfl

/-- The lengths of a message: an ephemeral key and a sealed payload. -/
theorem message_length (hP : P.Lawful) (hs : NoiseHs) (k : Key) (payload : Bytes) :
    (keyBytes k ++ (encryptAndHash P hs payload).2).length = NOISE_MSG1_OVERHEAD + payload.length := by
  rw [List.length_append, keyBytes_length, encryptAndHash_length hP]
  unfold NOISE_MSG1_OVERHEAD NOISE_TAGLEN
  omega

theorem drop_keyBytes (k : Key) (rest : Bytes) : (keyBytes k ++ rest).drop NOISE_DHLEN = rest :=
  List.drop_left' (keyBytes_length k)

/-- **Message 1**, written by the initiator and read by the responder. -/
theorem message1_agrees (hP : P.Lawful) (ht : SameTranscript i r) (hi : i.initiator = true)
    (hr : r.initiator = false) (hpub : i.sPub = P.publicKey r.sPriv) (psk seed : Key)
    (hdh : P.x25519 seed i.sPub ≠ 0) (hfit : NOISE_MSG1_OVERHEAD + payload.length ≤ outSize)
    (hsize : payload.length ≤ size) :
    ∃ i' msg es r', noiseWriteMsg1 P i psk seed payload outSize = (i', some msg) ∧ noiseMsg1Es P r msg = some es ∧
      noiseReadMsg1 P r psk es msg size = (r', some payload) ∧ SameTranscript i' r' ∧
      (i'.ePriv = seed ∧ i'.initiator = true) ∧ r'.re = P.publicKey seed ∧ r'.initiator = false := by
  have hkeys : SameKeys _ (mixEphemeral P (mixKeyAndHash P i (keyBytes psk)) seed) := mixEphemeral_sameKeys _ _
  generalize ha : mixEphemeral P (mixKeyAndHash P i (keyBytes psk)) seed = a at hkeys
  have hes : P.x25519 r.sPriv (P.publicKey seed) = P.x25519 seed i.sPub := by rw [hpub, hP.dh_comm]
  have haPub : a.sPub = i.sPub := hkeys.sPub
  generalize hshared : P.x25519 seed i.sPub = shared at hdh hes
  generalize hout : encryptAndHash P (mixKey P a (keyBytes shared)) payload = q
  have hlen := message_length hP (mixKey P a (keyBytes shared)) (P.publicKey seed) payload
  -- both sides up to the Diffie-Hellman result
  have hmixed : SameTranscript (mixKey P a (keyBytes shared))
      (mixKey P (mixRemote P (mixKeyAndHash P r (keyBytes psk)) (keyBytes (P.publicKey seed) ++ q.2))
        (keyBytes shared)) := by
    have := (ht.mixKeyAndHash (P := P) (keyBytes psk)).ephemeral (P := P) seed q.2
    rw [ha] at this
    exact this.mixKey _
  obtain ⟨hplain, hsame⟩ := hmixed.encrypt hP payload
  rw [hout] at hplain hsame hlen
  have hread : readMsg1 P r psk shared (keyBytes (P.publicKey seed) ++ q.2) size = decryptAndHash P
      (mixKey P (mixRemote P (mixKeyAndHash P r (keyBytes psk)) (keyBytes (P.publicKey seed) ++ q.2))
        (keyBytes shared)) q.2 := by
    unfold readMsg1
    rw [if_neg (by simp only [hr, hlen]; simp; omega), drop_keyBytes]
  rw [← hread] at hplain hsame
  refine ⟨q.1, _, shared, _, ?_, ?_, noiseReadMsg1_of_some hplain, hsame, ⟨?_, ?_⟩, ?_, ?_⟩
  · unfold noiseWriteMsg1
    rw [if_neg (by simp only [hi]; simp; omega), ha]
    dsimp only
    rw [show dh P a.ePriv a.sPub = some shared by unfold dh; rw [hkeys.ePriv, haPub, hshared, if_neg hdh]]
    dsimp only
    rw [hout, hkeys.ePub]
  · unfold noiseMsg1Es dh
    rw [if_neg (by simp only [hr, hlen]; simp), take_keyBytes, hes, if_neg hdh]
  · rw [show q.1 = (encryptAndHash P (mixKey P a (keyBytes shared)) payload).1 by rw [hout],
      (encryptAndHash_sameKeys _ _).ePriv, (mixKey_sameKeys _ _).ePriv, hkeys.ePriv]
  · rw [show q.1 = (encryptAndHash P (mixKey P a (keyBytes shared)) payload).1 by rw [hout],
      (encryptAndHash_sameKeys _ _).initiator, (mixKey_sameKeys _ _).initiator, hkeys.initiator]
    exact hi
  · rw [hread, (decryptAndHash_sameKeys _ _).re, (mixKey_sameKeys _ _).re]
    exact mixRemote_re seed q.2
  · rw [hread, (decryptAndHash_sameKeys _ _).initiator, (mixKey_sameKeys _ _).initiator,
      (mixRemote_sameKeys _ _).initiator]
    exact hr

/-- **Message 2**, written by the responder and read by the initiator. -/
theorem message2_agrees (hP : P.Lawful) (ht : SameTranscript i r) (hi : i.initiator = true)
    (hr : r.initiator = false) (hre : r.re = P.publicKey i.ePriv) (seed : Key) (hdh : P.x25519 seed r.re ≠ 0)
    (hfit : NOISE_MSG2_OVERHEAD + payload.length ≤ outSize) (hsize : payload.length ≤ size) :
    ∃ r' msg i', noiseWriteMsg2 P r seed payload outSize = (r', some msg) ∧
      noiseReadMsg2 P i msg size = (i', some payload) ∧ SameTranscript i' r' := by
  have hkeys : SameKeys _ (mixEphemeral P r seed) := mixEphemeral_sameKeys _ _
  generalize ha : mixEphemeral P r seed = a at hkeys
  have haRe : a.re = r.re := hkeys.re
  have hee : P.x25519 i.ePriv (P.publicKey seed) = P.x25519 seed r.re := by rw [hre, hP.dh_comm]
  generalize hshared : P.x25519 seed r.re = shared at hdh hee
  generalize hout : encryptAndHash P (mixKey P a (keyBytes shared)) payload = q
  have hlen := message_length hP (mixKey P a (keyBytes shared)) (P.publicKey seed) payload
  have hmixed : SameTranscript (mixKey P a (keyBytes shared))
      (mixKey P (mixRemote P i (keyBytes (P.publicKey seed) ++ q.2)) (keyBytes shared)) := by
    have := (SameTranscript.mk ht.h.symm ht.ck.symm ht.cs.symm).ephemeral (P := P) seed q.2
    rw [ha] at this
    exact this.mixKey _
  obtain ⟨hplain, hsame⟩ := hmixed.encrypt hP payload
  rw [hout] at hplain hsame hlen
  have hread : readMsg2 P i (keyBytes (P.publicKey seed) ++ q.2) size = decryptAndHash P
      (mixKey P (mixRemote P i (keyBytes (P.publicKey seed) ++ q.2)) (keyBytes shared)) q.2 := by
    have hsides := mixRemote_sameKeys (P := P) i (keyBytes (P.publicKey seed) ++ q.2)
    unfold readMsg2
    rw [if_neg (by simp only [hi, hlen]; simp [NOISE_MSG1_OVERHEAD, NOISE_MSG2_OVERHEAD]; omega)]
    dsimp only
    rw [show dh P (mixRemote P i (keyBytes (P.publicKey seed) ++ q.2)).ePriv
      (mixRemote P i (keyBytes (P.publicKey seed) ++ q.2)).re = some shared by
        unfold dh; rw [mixRemote_re, hsides.ePriv, hee, if_neg hdh]]
    dsimp only
    rw [drop_keyBytes]
  rw [← hread] at hplain hsame
  refine ⟨q.1, _, _, ?_, noiseReadMsg2_of_some hplain, ⟨hsame.h.symm, hsame.ck.symm, hsame.cs.symm⟩⟩
  unfold noiseWriteMsg2
  rw [if_neg (by simp only [hr]; simp; omega), ha]
  dsimp only
  rw [show dh P a.ePriv a.re = some shared by unfold dh; rw [hkeys.ePriv, haRe, hshared, if_neg hdh]]
  dsimp only
  rw [hout, hkeys.ePub]

/-- Without a payload yet both sides have the same transcript. -/
theorem init_sameTranscript (prologue : Bytes) (sPriv sPub : Key) :
    SameTranscript (noiseInitInitiator P prologue sPub) (noiseInitResponder P prologue sPriv sPub) :=
  ⟨rfl, rfl, rfl⟩

end Messages

/-! ## Reads that fail -/

theorem noiseReadMsg1_none {hs : NoiseHs} {psk es : Key} {msg : Bytes} {size : ℕ}
    (h : (noiseReadMsg1 P hs psk es msg size).2 = none) : (noiseReadMsg1 P hs psk es msg size).1 = hs := by
  unfold noiseReadMsg1 at h ⊢
  cases hread : readMsg1 P hs psk es msg size with
  | mk t p =>
    rw [hread] at h
    cases p with
    | none => rfl
    | some payload => cases h

theorem noiseReadMsg2_none {hs : NoiseHs} {msg : Bytes} {size : ℕ}
    (h : (noiseReadMsg2 P hs msg size).2 = none) : (noiseReadMsg2 P hs msg size).1 = hs := by
  unfold noiseReadMsg2 at h ⊢
  cases hread : readMsg2 P hs msg size with
  | mk t p =>
    rw [hread] at h
    cases p with
    | none => rfl
    | some payload => cases h

/-- The state behind reads of any messages, one after the other. -/
def readAll {μ : Type} (read : NoiseHs → μ → NoiseHs × Option Bytes) (hs : NoiseHs) (msgs : List μ) : NoiseHs :=
  msgs.foldl (fun hs msg => (read hs msg).1) hs

/-- Bogus messages leave the state that a valid one needs. -/
theorem readAll_bogus {μ : Type} {read : NoiseHs → μ → NoiseHs × Option Bytes} {hs : NoiseHs} {msgs : List μ}
    (hkeep : ∀ msg ∈ msgs, (read hs msg).2 = none → (read hs msg).1 = hs)
    (hbogus : ∀ msg ∈ msgs, (read hs msg).2 = none) : readAll read hs msgs = hs := by
  induction msgs with
  | nil => rfl
  | cons msg msgs ih =>
    have hstay : (read hs msg).1 = hs := hkeep msg List.mem_cons_self (hbogus msg List.mem_cons_self)
    unfold readAll
    rw [List.foldl_cons, hstay]
    exact ih (fun m hm => hkeep m (List.mem_cons_of_mem _ hm)) fun m hm => hbogus m (List.mem_cons_of_mem _ hm)

/-! ## Many keys, one Diffie-Hellman result -/

/-- The responder's side of message 1 as the protocol has it: `psk`, `e`, and `es` of its own. -/
def plainReadMsg1 (P : NoisePrims) (base : NoiseHs) (psk : Key) (msg : Bytes) (payloadSize : ℕ) :
    Option (Bytes × NoiseHs) :=
  if base.initiator ∨ msg.length < NOISE_MSG1_OVERHEAD ∨ payloadSize < msg.length - NOISE_MSG1_OVERHEAD then none
  else
    let hs := mixRemote P (mixKeyAndHash P base (keyBytes psk)) msg
    match dh P hs.sPriv hs.re with
    | none => none
    | some es => succeeded (decryptAndHash P (mixKey P hs (keyBytes es)) (msg.drop NOISE_DHLEN))

theorem succeeded_noiseReadMsg1 (hs : NoiseHs) (psk es : Key) (msg : Bytes) (size : ℕ) :
    succeeded (noiseReadMsg1 P hs psk es msg size) = succeeded (readMsg1 P hs psk es msg size) := by
  unfold noiseReadMsg1
  cases readMsg1 P hs psk es msg size with
  | mk t p => cases p <;> rfl

/-- `es` once, then any key: the same as the protocol with that key. -/
theorem plainReadMsg1_eq (base : NoiseHs) (psk : Key) (msg : Bytes) (size : ℕ) :
    plainReadMsg1 P base psk msg size =
      (noiseMsg1Es P base msg).bind fun es => succeeded (noiseReadMsg1 P base psk es msg size) := by
  have hre : (mixRemote P (mixKeyAndHash P base (keyBytes psk)) msg).re = keyOfBytes (msg.take NOISE_DHLEN) :=
    (mixRemote_sameKeys _ _).re
  have hpriv : (mixRemote P (mixKeyAndHash P base (keyBytes psk)) msg).sPriv = base.sPriv :=
    (mixRemote_sameKeys _ _).sPriv
  unfold plainReadMsg1 noiseMsg1Es
  by_cases hbad : base.initiator = true ∨ msg.length < NOISE_MSG1_OVERHEAD
  · rw [if_pos (hbad.imp id Or.inl), if_pos hbad]
    rfl
  · rw [if_neg hbad]
    rw [not_or] at hbad
    dsimp only
    rw [hre, hpriv]
    cases hdh : dh P base.sPriv (keyOfBytes (msg.take NOISE_DHLEN)) with
    | none => exact ite_self _
    | some es =>
      rw [Option.bind_some, succeeded_noiseReadMsg1]
      unfold readMsg1
      dsimp only
      split <;> rfl

section Trials

variable {Hs : Type} (N : Noise Hs)

/-- The keys that the budgets let a handshake try, as far as none opens its message 1 before. -/
def triedKeys (ks : Keystore) (own : Option ℕ) (now : Time) (fresh : Bool → Option (BitVec 128)) (a : Ip) :
    List ℕ → Budget → Source n → List Key
  | [], _, _ => []
  | i :: is, b, src =>
    match ks.entries[i]? with
    | none => []
    | some e =>
      if e.locked then triedKeys ks own now fresh a is b src
      else
        let (b, src, ok) := trialBudget N ks own now fresh a i e b src
        if !ok then [] else e.pskKey :: triedKeys ks own now fresh a is b src

/-- The key loop stops at the first of them that opens message 1. -/
theorem keyTrials_eq (ks : Keystore) (own : Option ℕ) (now : Time) (fresh : Bool → Option (BitVec 128)) (a : Ip)
    (base : Hs) (es : Key) (msg : Bytes) (is : List ℕ) (b : Budget) (src : Source n) :
    (keyTrials N ks own now fresh a base es msg is b src).2 =
      (triedKeys N ks own now fresh a is b src).findSome? fun key =>
        (N.readMsg1 base key es msg INIT_PAYLOAD_MAX).map fun x => (key, x) := by
  induction is generalizing b src with
  | nil => rfl
  | cons i is ih =>
    unfold keyTrials triedKeys
    cases ks.entries[i]? with
    | none => rfl
    | some e =>
      dsimp only
      split
      · exact ih b src
      · generalize trialBudget N ks own now fresh a i e b src = q
        obtain ⟨b, src, ok⟩ := q
        cases ok with
        | false => rfl
        | true =>
          simp only [Bool.not_true, Bool.false_eq_true, if_false, List.findSome?_cons]
          cases N.readMsg1 base e.pskKey es msg INIT_PAYLOAD_MAX with
          | none => exact ih b src
          | some x => rfl

end Trials

/-! ## The handshake -/

/-- **The handshake is complete and both sides agree**; reads that fail change nothing; and the server's one DH
result for many keys is the protocol with each of them. -/
theorem handshake_complete (hP : P.Lawful) :
    (∀ prologue psk sPriv eI eR (payload1 payload2 : Bytes) out1 size1 out2 size2,
      P.x25519 eI (P.publicKey sPriv) ≠ 0 → P.x25519 eR (P.publicKey eI) ≠ 0 →
      NOISE_MSG1_OVERHEAD + payload1.length ≤ out1 → payload1.length ≤ size1 →
      NOISE_MSG2_OVERHEAD + payload2.length ≤ out2 → payload2.length ≤ size2 →
      ∃ i₁ msg1 es r₁ r₂ msg2 i₂,
        noiseWriteMsg1 P (noiseInitInitiator P prologue (P.publicKey sPriv)) psk eI payload1 out1 = (i₁, some msg1) ∧
        noiseMsg1Es P (noiseInitResponder P prologue sPriv (P.publicKey sPriv)) msg1 = some es ∧
        noiseReadMsg1 P (noiseInitResponder P prologue sPriv (P.publicKey sPriv)) psk es msg1 size1 =
          (r₁, some payload1) ∧ SameTranscript i₁ r₁ ∧
        noiseWriteMsg2 P r₁ eR payload2 out2 = (r₂, some msg2) ∧
        noiseReadMsg2 P i₁ msg2 size2 = (i₂, some payload2) ∧ SameTranscript i₂ r₂ ∧
        noiseSplit P i₂ = noiseSplit P r₂) ∧
    (∀ hs (msgs : List (Key × Key × Bytes × ℕ)),
      (∀ m ∈ msgs, (noiseReadMsg1 P hs m.1 m.2.1 m.2.2.1 m.2.2.2).2 = none) →
      readAll (fun hs m => noiseReadMsg1 P hs m.1 m.2.1 m.2.2.1 m.2.2.2) hs msgs = hs) ∧
    (∀ hs (msgs : List (Bytes × ℕ)), (∀ m ∈ msgs, (noiseReadMsg2 P hs m.1 m.2).2 = none) →
      readAll (fun hs m => noiseReadMsg2 P hs m.1 m.2) hs msgs = hs) ∧
    ∀ mac1 shareHash keyFromPsk n ks own now fresh a base msg is b (src : Source n),
      match noiseMsg1Es P base msg with
      | none => ∀ key, plainReadMsg1 P base key msg INIT_PAYLOAD_MAX = none
      | some es =>
        (keyTrials (P.noise mac1 shareHash keyFromPsk) ks own now fresh a base es msg is b src).2 =
          (triedKeys (P.noise mac1 shareHash keyFromPsk) ks own now fresh a is b src).findSome? fun key =>
            (plainReadMsg1 P base key msg INIT_PAYLOAD_MAX).map fun x => (key, x) := by
  refine ⟨?_, fun hs msgs hbogus => ?_, fun hs msgs hbogus => ?_, ?_⟩
  · intro prologue psk sPriv eI eR payload1 payload2 out1 size1 out2 size2 hes hee hfit1 hsize1 hfit2 hsize2
    obtain ⟨i₁, msg1, es, r₁, hwrite, hmsg1Es, hread, hsame, ⟨hseed, hi₁⟩, hre, hr₁⟩ :=
      message1_agrees hP (init_sameTranscript prologue sPriv (P.publicKey sPriv)) rfl rfl rfl psk eI hes hfit1 hsize1
    obtain ⟨r₂, msg2, i₂, hwrite2, hread2, hsame2⟩ :=
      message2_agrees hP hsame hi₁ hr₁ (by rw [hre, hseed]) eR (by rw [hre]; exact hee) hfit2 hsize2
    refine ⟨i₁, msg1, es, r₁, r₂, msg2, i₂, hwrite, hmsg1Es, hread, hsame, hwrite2, hread2, hsame2, ?_⟩
    unfold noiseSplit
    rw [hsame2.ck]
  · exact readAll_bogus (fun _ _ => noiseReadMsg1_none) hbogus
  · exact readAll_bogus (fun _ _ => noiseReadMsg2_none) hbogus
  · intro mac1 shareHash keyFromPsk n ks own now fresh a base msg is b src
    cases hes : noiseMsg1Es P base msg with
    | none =>
      intro key
      rw [plainReadMsg1_eq, hes]
      rfl
    | some es =>
      dsimp only
      rw [keyTrials_eq]
      congr 1
      funext key
      rw [plainReadMsg1_eq, hes]
      rfl

/-- Primitives that can be run: a group of exponents of 9, and a tag that is a sum. -/
def toyPrims : NoisePrims where
  hash bs := BitVec.ofNat 512 (beValue bs)
  hmac key data := BitVec.ofNat 512 (beValue key + beValue data)
  x25519 priv pub := priv * pub
  publicKey priv := priv * 9
  encrypt key n ad plain := plain ++ beBytes NOISE_TAGLEN (key.toNat + n + beValue ad + beValue plain)
  decrypt key n ad sealed :=
    let plain := sealed.take (sealed.length - NOISE_TAGLEN)
    if sealed = plain ++ beBytes NOISE_TAGLEN (key.toNat + n + beValue ad + beValue plain) then some plain else none

theorem toyPrims_lawful : toyPrims.Lawful := by
  refine ⟨fun key n ad plain => ?_, fun key n ad plain => ?_, fun a b => ?_⟩
  · have htake : (plain ++ beBytes NOISE_TAGLEN (key.toNat + n + beValue ad + beValue plain)).take
        ((plain ++ beBytes NOISE_TAGLEN (key.toNat + n + beValue ad + beValue plain)).length - NOISE_TAGLEN) =
          plain := List.take_left' (by simp)
    simp only [toyPrims, htake, if_true]
  · simp [toyPrims]
  · simp only [toyPrims]
    rw [← BitVec.mul_assoc, BitVec.mul_comm a b, BitVec.mul_assoc]

/-- Both sides of one handshake, with the keys they end up with. -/
theorem handshake_complete_toy : ∃ i r : NoiseHs, SameTranscript i r ∧ noiseSplit toyPrims i = noiseSplit toyPrims r := by
  obtain ⟨i₁, msg1, es, r₁, r₂, msg2, i₂, -, -, -, -, -, -, hsame, hsplit⟩ :=
    (handshake_complete toyPrims_lawful).1 CAMEX_NOISE_PROLOGUE 1 2 3 5 [1, 2] [3] 100 2 100 1 (by decide +kernel)
      (by decide +kernel) (by decide) (by decide) (by decide) (by decide)
  exact ⟨i₂, r₂, hsame, hsplit⟩

end Camex

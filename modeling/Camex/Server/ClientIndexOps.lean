import Camex.Server.ClientIndex

/-!
# The operations on the indexed table

* `KeysIndexed.applyOp`: every operation keeps the keys of the active entries indexed;
* `clients_applyOp`: on the table alone an operation is the setter without indexes;
* `KeysIndexed.findByIp`, `KeysIndexed.findByClientId`, `KeysIndexed.findByAddr`: the lookups answer what the scans do.
-/

namespace Camex

open Lib

variable {n : ℕ}

/-! ## The operations keep it -/

def KeysBut (c c' : ServerClient) (but : WhichIndex → BitVec 32 → Prop) : Prop :=
  c'.active = true → c.active = true ∧
    ∀ k ∈ entryKeys c', (∃ k' ∈ entryKeys c, k'.1.index = k.1.index ∧ k'.2 = k.2) ∨ but k.1.index k.2

theorem mem_entryKeys {c : ServerClient} {k : EntryKey × BitVec 32} : k ∈ entryKeys c ↔
    (c.ipBe ≠ 0 ∧ k = (.ip, slotidxHashU32 c.ipBe)) ∨ (c.pendingIpBe ≠ 0 ∧ k = (.pending, slotidxHashU32 c.pendingIpBe)) ∨
    ((c.prev.valid = true ∧ c.prevIpBe ≠ 0) ∧ k = (.prev, slotidxHashU32 c.prevIpBe)) ∨
    (c.clientId ≠ [] ∧ k = (.id, slotidxHashNocase c.clientId)) ∨ (addrIsSet c.addr = true ∧ k = (.addr, hashAddr c.addr)) := by
  have hif : ∀ (b : Bool) (x : EntryKey × BitVec 32), k ∈ (if b then [x] else []) ↔ b = true ∧ k = x := by
    intro b x
    cases b <;> simp
  simp only [entryKeys, List.mem_append, hif]
  simp only [bne_iff_ne, Bool.and_eq_true]

theorem IndexedBut.setClient {t : IndexedTable n} (ht : KeysIndexed t) (i : Fin n) {c : ServerClient}
    {but : WhichIndex → BitVec 32 → Prop} (hc : KeysBut (t.clients i) c but) : IndexedBut (t.setClient i c) i but := by
  refine ⟨ht.ok, fun hok j hj k hk => ?_⟩
  by_cases hji : j = i
  · subst hji
    have hself : (t.setClient j c).clients j = c := Function.update_self ..
    rw [hself] at hj hk
    obtain ⟨hactive, hkeys⟩ := hc hj
    rcases hkeys k hk with ⟨k', hk', hindex, hhash⟩ | hbut
    · rw [← hindex, ← hhash]
      exact Or.inl (ht.keys hok j hactive k' hk')
    · exact Or.inr ⟨rfl, hbut⟩
  · have hother : (t.setClient i c).clients j = t.clients j := Function.update_of_ne hji ..
    rw [hother] at hj hk
    exact Or.inl (ht.keys hok j hj k hk)

theorem KeysIndexed.setClient {t : IndexedTable n} (ht : KeysIndexed t) (i : Fin n) {c : ServerClient}
    (hc : KeysBut (t.clients i) c fun _ _ => False) : KeysIndexed (t.setClient i c) :=
  (IndexedBut.setClient ht i hc).indexed fun _ _ h => h

theorem KeysIndexed.setClient_add {t : IndexedTable n} (ht : KeysIndexed t) (i : Fin n) {c : ServerClient} {w : WhichIndex}
    {h : BitVec 32} (hc : KeysBut (t.clients i) c fun w' h' => w' = w ∧ h' = h) (mem : AddMem n) :
    KeysIndexed (serverIndexAdd (t.setClient i c) w h i mem) :=
  (serverIndexAdd_spec (IndexedBut.setClient ht i hc) w h mem).2.indexed fun _ _ hbut => hbut.2 hbut.1

theorem KeysBut.of {c c' : ServerClient} {but : WhichIndex → BitVec 32 → Prop}
    (hactive : c'.active = true → c.active = true)
    (hip : c'.ipBe ≠ 0 → c'.ipBe = c.ipBe ∨ but .ip (slotidxHashU32 c'.ipBe))
    (hpending : c'.pendingIpBe ≠ 0 → c'.pendingIpBe = c.pendingIpBe ∨ but .ip (slotidxHashU32 c'.pendingIpBe))
    (hprev : c'.prev.valid = true → c'.prevIpBe ≠ 0 →
      c.prev.valid = true ∧ c'.prevIpBe = c.prevIpBe ∨ c'.prevIpBe = c.ipBe)
    (hid : c'.clientId ≠ [] → c'.clientId = c.clientId ∨ but .id (slotidxHashNocase c'.clientId))
    (haddr : addrIsSet c'.addr = true → c'.addr = c.addr ∨ but .addr (hashAddr c'.addr)) : KeysBut c c' but := by
  refine fun ha => ⟨hactive ha, fun k hk => ?_⟩
  rcases mem_entryKeys.mp hk with ⟨h0, rfl⟩ | ⟨h0, rfl⟩ | ⟨⟨hv, h0⟩, rfl⟩ | ⟨h0, rfl⟩ | ⟨h0, rfl⟩
  · refine (hip h0).imp (fun heq => ?_) id
    exact ⟨(.ip, slotidxHashU32 c.ipBe), mem_entryKeys.mpr (Or.inl ⟨heq ▸ h0, rfl⟩), rfl, by rw [heq]⟩
  · refine (hpending h0).imp (fun heq => ?_) id
    exact ⟨(.pending, slotidxHashU32 c.pendingIpBe), mem_entryKeys.mpr (Or.inr (Or.inl ⟨heq ▸ h0, rfl⟩)), rfl,
      by rw [heq]⟩
  · refine Or.inl ?_
    rcases hprev hv h0 with ⟨hv', heq⟩ | heq
    · exact ⟨(.prev, slotidxHashU32 c.prevIpBe), mem_entryKeys.mpr (Or.inr (Or.inr (Or.inl ⟨⟨hv', heq ▸ h0⟩, rfl⟩))),
        rfl, by rw [heq]⟩
    · exact ⟨(.ip, slotidxHashU32 c.ipBe), mem_entryKeys.mpr (Or.inl ⟨heq ▸ h0, rfl⟩), rfl, by rw [heq]⟩
  · refine (hid h0).imp (fun heq => ?_) id
    exact ⟨(.id, slotidxHashNocase c.clientId),
      mem_entryKeys.mpr (Or.inr (Or.inr (Or.inr (Or.inl ⟨heq ▸ h0, rfl⟩)))), rfl, by rw [heq]⟩
  · refine (haddr h0).imp (fun heq => ?_) id
    exact ⟨(.addr, hashAddr c.addr), mem_entryKeys.mpr (Or.inr (Or.inr (Or.inr (Or.inr ⟨heq ▸ h0, rfl⟩)))), rfl,
      by rw [heq]⟩

theorem KeysIndexed.setClient_empty {t : IndexedTable n} (ht : KeysIndexed t) (i : Fin n) {c : ServerClient}
    (hc : entryKeys c = []) : KeysIndexed (t.setClient i c) := by
  refine ⟨ht.ok, fun hok j hj k hk => ?_⟩
  by_cases hji : j = i
  · subst hji
    have hself : (t.setClient j c).clients j = c := Function.update_self ..
    rw [hself, hc] at hk
    cases hk
  · have hother : (t.setClient i c).clients j = t.clients j := Function.update_of_ne hji ..
    rw [hother] at hj hk
    exact ht.keys hok j hj k hk

namespace KeysIndexed

variable {t : IndexedTable n}

theorem setIp (ht : KeysIndexed t) (i : Fin n) (ip : Ip) (mem : AddMem n) : KeysIndexed (t.setIp i ip mem) := by
  unfold IndexedTable.setIp
  split
  · exact ht
  · dsimp only
    have hkeys : ∀ but : WhichIndex → BitVec 32 → Prop, (ip ≠ 0 → but .ip (slotidxHashU32 ip)) →
        KeysBut (t.clients i) { t.clients i with ipBe := ip } but := fun but hbut =>
      .of id (fun h0 => Or.inr (hbut h0)) (fun _ => Or.inl rfl) (fun hv _ => Or.inl ⟨hv, rfl⟩) (fun _ => Or.inl rfl)
        fun _ => Or.inl rfl
    split
    · exact ht.setClient_add i (hkeys _ fun _ => ⟨rfl, rfl⟩) mem
    · rename_i h0
      exact ht.setClient i (hkeys _ fun hne => h0 hne)

theorem clearPending (ht : KeysIndexed t) (i : Fin n) : KeysIndexed (t.setClient i { t.clients i with pendingIpBe := 0 }) :=
  ht.setClient i (.of id (fun _ => Or.inl rfl) (fun h0 => absurd rfl h0) (fun hv _ => Or.inl ⟨hv, rfl⟩)
    (fun _ => Or.inl rfl) fun _ => Or.inl rfl)

theorem assignIp (ht : KeysIndexed t) (i : Fin n) (ip : Ip) (mem : AddMem n) : KeysIndexed (t.assignIp i ip mem) := by
  unfold IndexedTable.assignIp
  dsimp only
  split
  · split
    · have hkeys : KeysBut (t.clients i) { t.clients i with pendingIpBe := ip }
          fun w h => w = .ip ∧ h = slotidxHashU32 ip :=
        .of id (fun _ => Or.inl rfl) (fun _ => Or.inr ⟨rfl, rfl⟩) (fun hv _ => Or.inl ⟨hv, rfl⟩) (fun _ => Or.inl rfl)
          fun _ => Or.inl rfl
      exact ht.setClient_add i hkeys mem
    · exact ht
  · exact (ht.clearPending i).setIp i ip mem

theorem restoreIp (ht : KeysIndexed t) (i : Fin n) (ip pendingIp : Ip) (mem memIp memPending : AddMem n) :
    KeysIndexed (t.restoreIp i ip pendingIp mem memIp memPending) := by
  unfold IndexedTable.restoreIp
  dsimp only
  have hset := ht.setIp i ip mem
  generalize t.setIp i ip mem = u at hset ⊢
  -- only the pending address may be missing now
  have hbut : IndexedBut (u.setClient i { u.clients i with pendingIpBe := pendingIp }) i
      fun w h => pendingIp ≠ 0 ∧ w = .ip ∧ h = slotidxHashU32 pendingIp :=
    IndexedBut.setClient hset i (.of id (fun _ => Or.inl rfl) (fun h0 => Or.inr ⟨h0, rfl, rfl⟩)
      (fun hv _ => Or.inl ⟨hv, rfl⟩) (fun _ => Or.inl rfl) fun _ => Or.inl rfl)
  generalize u.setClient i { u.clients i with pendingIpBe := pendingIp } = v at hbut ⊢
  have hbut' : IndexedBut (if ip ≠ 0 then serverIndexAdd v .ip (slotidxHashU32 ip) i memIp else v) i
      fun w h => pendingIp ≠ 0 ∧ w = .ip ∧ h = slotidxHashU32 pendingIp := by
    split
    · have hadd := (serverIndexAdd_spec hbut .ip (slotidxHashU32 ip) memIp).2
      exact ⟨hadd.ok, fun hok j hj k hk => (hadd.keys hok j hj k hk).imp id fun h => ⟨h.1, h.2.1⟩⟩
    · exact hbut
  generalize (if ip ≠ 0 then serverIndexAdd v .ip (slotidxHashU32 ip) i memIp else v) = v' at hbut' ⊢
  split
  · exact (serverIndexAdd_spec hbut' .ip _ memPending).2.indexed fun w h hmissing => hmissing.2 hmissing.1.2
  · rename_i h0
    exact hbut'.indexed fun w h hmissing => h0 hmissing.1

theorem setId (ht : KeysIndexed t) (i : Fin n) (clientId : CStr) (mem : AddMem n) : KeysIndexed (t.setId i clientId mem) := by
  unfold IndexedTable.setId
  split
  · exact ht
  · dsimp only
    generalize store CAMEX_CLIENT_ID_LEN clientId = id
    have hkeys : ∀ but : WhichIndex → BitVec 32 → Prop, (id ≠ [] → but .id (slotidxHashNocase id)) →
        KeysBut (t.clients i) { t.clients i with clientId := id } but := fun but hbut =>
      .of (fun ha => ha) (fun _ => Or.inl rfl) (fun _ => Or.inl rfl) (fun hv _ => Or.inl ⟨hv, rfl⟩)
        (fun h0 => Or.inr (hbut h0)) fun _ => Or.inl rfl
    split
    · exact ht.setClient_add i (hkeys _ fun _ => ⟨rfl, rfl⟩) mem
    · rename_i h0
      exact ht.setClient i (hkeys _ fun hne => h0 hne)

theorem setAddr (ht : KeysIndexed t) (i : Fin n) (addr : SockAddr) (mem : AddMem n) : KeysIndexed (t.setAddr i addr mem) := by
  unfold IndexedTable.setAddr
  split
  · exact ht
  · dsimp only
    have hkeys : ∀ but : WhichIndex → BitVec 32 → Prop, (addrIsSet addr = true → but .addr (hashAddr addr)) →
        KeysBut (t.clients i) { t.clients i with addr := addr } but := fun but hbut =>
      .of id (fun _ => Or.inl rfl) (fun _ => Or.inl rfl) (fun hv _ => Or.inl ⟨hv, rfl⟩) (fun _ => Or.inl rfl)
        fun hset => Or.inr (hbut hset)
    split
    · exact ht.setClient_add i (hkeys _ fun _ => ⟨rfl, rfl⟩) mem
    · rename_i h0
      exact ht.setClient i (hkeys _ fun hset => h0 hset)

theorem promote (ht : KeysIndexed t) (i : Fin n) (now : Time) (mem : AddMem n) : KeysIndexed (t.promote i now mem) := by
  unfold IndexedTable.promote
  dsimp only
  have hset := ht.setClient i (c := { t.clients i with
      prev := (t.clients i).cur, prevUntil := now + V2_PREV_SESSION_GRACE, prevIpBe := (t.clients i).ipBe
      cur := (t.clients i).next, next := .wiped })
    (.of id (fun _ => Or.inl rfl) (fun _ => Or.inl rfl) (fun _ _ => Or.inr rfl) (fun _ => Or.inl rfl)
      fun _ => Or.inl rfl)
  split
  · exact (hset.setIp i _ mem).clearPending i
  · exact hset

/-- **Every operation keeps the keys of the active entries indexed.** -/
theorem applyOp (ht : KeysIndexed t) (o : TableOp n) : KeysIndexed (applyOp t o) := by
  obtain ⟨i, op, mem⟩ := o
  cases op with
  | take fd now => exact ht.setClient_empty i rfl
  | drop => exact ht.setClient_empty i rfl
  | setIp ip => exact ht.setIp i ip (mem 0)
  | assignIp ip => exact ht.assignIp i ip (mem 0)
  | restoreIp ip pendingIp => exact ht.restoreIp i ip pendingIp (mem 0) (mem 1) (mem 2)
  | setId clientId => exact ht.setId i clientId (mem 0)
  | setAddr addr => exact ht.setAddr i addr (mem 0)
  | promote now => exact ht.promote i now (mem 0)
  | clearPending => exact ht.clearPending i
  | clearPrev =>
    exact ht.setClient i (.of id (fun _ => Or.inl rfl) (fun _ => Or.inl rfl) (fun _ h0 => absurd rfl h0)
      (fun _ => Or.inl rfl) fun _ => Or.inl rfl)
  | setCur x | setNext x | usePrev x | touch d =>
    exact ht.setClient i (.of id (fun _ => Or.inl rfl) (fun _ => Or.inl rfl) (fun hv _ => Or.inl ⟨hv, rfl⟩)
      (fun _ => Or.inl rfl) fun _ => Or.inl rfl)

theorem clientsInit (mem : RebuildMem n) : KeysIndexed (Camex.clientsInit mem) :=
  serverIndexRebuild_spec (fun w => by cases w <;> exact .none) mem

end KeysIndexed

/-! ## On the table alone -/

@[simp] theorem clients_serverIndexAdd (t : IndexedTable n) (w : WhichIndex) (h : BitVec 32) (i : Fin n)
    (mem : AddMem n) : (serverIndexAdd t w h i mem).clients = t.clients := by
  unfold serverIndexAdd
  split
  · rfl
  · split
    · rfl
    · split
      · rfl
      · rfl

namespace IndexedTable

@[simp] theorem clients_setClient (t : IndexedTable n) (i : Fin n) (c : ServerClient) :
    (t.setClient i c).clients = Function.update t.clients i c := rfl

theorem clients_setIp (t : IndexedTable n) (i : Fin n) (ip : Ip) (mem : AddMem n) :
    (t.setIp i ip mem).clients = Function.update t.clients i (serverSetIp (t.clients i) ip) := by
  unfold setIp
  split
  · rename_i heq
    rw [← heq]
    exact (Function.update_eq_self i t.clients).symm
  · dsimp only
    split
    · rw [clients_serverIndexAdd]
      rfl
    · rfl

theorem clients_assignIp (t : IndexedTable n) (i : Fin n) (ip : Ip) (mem : AddMem n) :
    (t.assignIp i ip mem).clients = Function.update t.clients i (serverAssignIp (t.clients i) ip) := by
  unfold assignIp serverAssignIp
  dsimp only
  split
  · split
    · rw [clients_serverIndexAdd]
      rfl
    · rename_i heq
      rw [show ip = (t.clients i).pendingIpBe from (not_not.mp heq).symm]
      exact (Function.update_eq_self i t.clients).symm
  · rw [clients_setIp]
    simp

theorem clients_restoreIp (t : IndexedTable n) (i : Fin n) (ip pendingIp : Ip) (mem memIp memPending : AddMem n) :
    (t.restoreIp i ip pendingIp mem memIp memPending).clients =
      Function.update t.clients i (serverRestoreIp (t.clients i) ip pendingIp) := by
  have hset : ((t.setIp i ip mem).setClient i { (t.setIp i ip mem).clients i with pendingIpBe := pendingIp }).clients =
      Function.update t.clients i (serverRestoreIp (t.clients i) ip pendingIp) := by
    rw [clients_setClient, clients_setIp]
    simp [serverRestoreIp]
  have hadd : ∀ (u : IndexedTable n) (a : Ip) (m : AddMem n),
      (if a ≠ 0 then serverIndexAdd u .ip (slotidxHashU32 a) i m else u).clients = u.clients := by
    intro u a m
    split
    · exact clients_serverIndexAdd ..
    · rfl
  unfold restoreIp
  dsimp only
  rw [hadd, hadd, hset]

theorem clients_setId (t : IndexedTable n) (i : Fin n) (clientId : CStr) (mem : AddMem n) :
    (t.setId i clientId mem).clients = Function.update t.clients i (serverSetId (t.clients i) clientId) := by
  unfold setId serverSetId
  split
  · exact (Function.update_eq_self i t.clients).symm
  · dsimp only
    split
    · rw [clients_serverIndexAdd]
      rfl
    · rfl

theorem clients_setAddr (t : IndexedTable n) (i : Fin n) (addr : SockAddr) (mem : AddMem n) :
    (t.setAddr i addr mem).clients = Function.update t.clients i (serverSetAddr (t.clients i) addr) := by
  unfold setAddr serverSetAddr
  split
  · rename_i heq
    have haddr : (t.clients i).addr = addr := by
      simpa [netSockaddrEqual] using ((Bool.and_eq_true _ _).mp heq).1
    rw [← haddr]
    exact (Function.update_eq_self i t.clients).symm
  · dsimp only
    split
    · rw [clients_serverIndexAdd]
      rfl
    · rfl

theorem clients_promote (t : IndexedTable n) (i : Fin n) (now : Time) (mem : AddMem n) :
    (t.promote i now mem).clients = Function.update t.clients i (Camex.promote (t.clients i) now) := by
  unfold promote Camex.promote
  dsimp only
  split
  · rw [clients_setClient, clients_setIp]
    simp [serverSetIp]
  · rename_i hzero
    rw [clients_setClient, not_not.mp hzero]

end IndexedTable

/-- **Without the indexes** an operation is its effect on the entry. -/
theorem clients_applyOp (t : IndexedTable n) (o : TableOp n) :
    (applyOp t o).clients = Function.update t.clients o.slot (o.op.entry (t.clients o.slot)) := by
  obtain ⟨i, op, mem⟩ := o
  cases op with
  | setIp ip => exact t.clients_setIp i ip (mem 0)
  | assignIp ip => exact t.clients_assignIp i ip (mem 0)
  | restoreIp ip pendingIp => exact t.clients_restoreIp i ip pendingIp (mem 0) (mem 1) (mem 2)
  | setId clientId => exact t.clients_setId i clientId (mem 0)
  | setAddr addr => exact t.clients_setAddr i addr (mem 0)
  | promote now => exact t.clients_promote i now (mem 0)
  | take | drop | clearPending | clearPrev | setCur | setNext | usePrev | touch => rfl

/-! ## Lookups -/

/-- A lookup answers what a scan does when the index holds every slot that the scan may stop at. -/
theorem Slotidx.Ok.find_eq_lowest {x : Slotidx} (hx : x.Ok) {t : Table n} {p : ServerClient → Bool} {h : BitVec 32}
    (hheld : ∀ i, p (t i) = true → x.Has h i) : toSlot (slotidxFind x h (atSlot t p)) = lowest fun i => p (t i) := by
  have hat : ∀ i : Fin n, atSlot t p i = p (t i) := fun i => by simp [atSlot]
  cases hfind : slotidxFind x h (atSlot t p) with
  | none =>
    refine (lowest_eq_none.mpr fun i => ?_).symm
    cases hp : p (t i) with
    | false => rfl
    | true =>
      have hno := hx.find_none hfind (hheld i hp)
      rw [hat, hp] at hno
      cases hno
  | some k =>
    obtain ⟨-, hk, hleast⟩ := hx.find_some hfind
    have hlt : k < n := by
      by_contra hge
      simp [atSlot, hge] at hk
    have hpk : p (t ⟨k, hlt⟩) = true := by rw [← hat]; exact hk
    obtain ⟨j, hj⟩ := lowest_isSome (p := fun i => p (t i)) hpk
    have hpj : p (t j) = true := lowest_some (p := fun i => p (t i)) hj
    have hle : j ≤ ⟨k, hlt⟩ := lowest_le hj hpk
    have hge : k ≤ j := hleast j (hheld j hpj) (by rw [hat]; exact hpj)
    have hjk : (⟨k, hlt⟩ : Fin n) = j := Fin.ext (le_antisymm hge hle)
    simp [toSlot, hlt, hj, hjk]

namespace KeysIndexed

variable {t : IndexedTable n}

theorem findByIp (ht : KeysIndexed t) (ip : Ip) : t.findByIp ip = serverFindByIp t.clients ip := by
  unfold IndexedTable.findByIp
  cases hok : t.idx.ok with
  | false => rfl
  | true =>
    have hheld : ∀ i, matchIp (t.clients i) ip = true → t.idx.ip.Has (slotidxHashU32 ip) i := by
      intro i hmatch
      simp only [matchIp, Bool.and_eq_true, Bool.or_eq_true, bne_iff_ne, beq_iff_eq] at hmatch
      obtain ⟨⟨hip, hactive⟩, (heq | heq) | ⟨hvalid, heq⟩⟩ := hmatch
      · exact heq ▸ ht.keys hok i hactive _ (mem_entryKeys.mpr (Or.inl ⟨heq ▸ hip, rfl⟩))
      · exact heq ▸ ht.keys hok i hactive _ (mem_entryKeys.mpr (Or.inr (Or.inl ⟨heq ▸ hip, rfl⟩)))
      · exact heq ▸ ht.keys hok i hactive _ (mem_entryKeys.mpr (Or.inr (Or.inr (Or.inl ⟨⟨hvalid, heq ▸ hip⟩, rfl⟩))))
    have hcur := (ht.ok .ip).find_eq_lowest (t := t.clients) (p := fun c => matchCurIp c ip)
      fun i hmatch => hheld i (matchIp_of_cur hmatch)
    have hany := (ht.ok .ip).find_eq_lowest (t := t.clients) (p := fun c => matchIp c ip) hheld
    rw [show t.idx.get .ip = t.idx.ip from rfl] at hcur hany
    rw [if_pos rfl, serverFindByIp, ← hcur, ← hany]
    cases hfind : slotidxFind t.idx.ip (slotidxHashU32 ip) (atSlot t.clients fun c => matchCurIp c ip) with
    | none => rfl
    | some k =>
      rw [hfind] at hcur
      cases hslot : (toSlot (some k) : Option (Fin n)) with
      | some i => exact hslot
      | none =>
        -- a slot that matched is one of the table
        obtain ⟨-, hk, -⟩ := (ht.ok .ip).find_some hfind
        have hlt : k < n := by
          by_contra hge
          simp [atSlot, hge] at hk
        simp [toSlot, hlt] at hslot

theorem findByClientId (ht : KeysIndexed t) (clientId : CStr) :
    t.findByClientId clientId = serverFindByClientId t.clients clientId := by
  unfold IndexedTable.findByClientId serverFindByClientId
  split
  · rfl
  · rename_i hid
    split
    · rename_i hok
      refine (ht.ok .id).find_eq_lowest fun i hmatch => ?_
      obtain ⟨hactive, heq⟩ := (Bool.and_eq_true _ _).mp hmatch
      have hne : (t.clients i).clientId ≠ [] := by
        intro hnil
        rw [hnil, strcaseeq_comm, strcaseeq_nil] at heq
        exact hid heq
      have hheld := ht.keys hok i hactive _ (mem_entryKeys.mpr (Or.inr (Or.inr (Or.inr (Or.inl ⟨hne, rfl⟩)))))
      rw [← slotidxHashNocase_congr heq]
      exact hheld
    · rfl

theorem findByAddr (ht : KeysIndexed t) (addr : SockAddr) : t.findByAddr addr = serverFindByAddr t.clients addr := by
  unfold IndexedTable.findByAddr serverFindByAddr
  split
  · rename_i hif
    obtain ⟨hok, hset⟩ := (Bool.and_eq_true _ _).mp hif
    refine (ht.ok .addr).find_eq_lowest fun i hmatch => ?_
    obtain ⟨hactive, heq⟩ := (Bool.and_eq_true _ _).mp hmatch
    have haddr : (t.clients i).addr = addr := by simpa [netSockaddrEqual] using heq
    have hheld := ht.keys hok i hactive _
      (mem_entryKeys.mpr (Or.inr (Or.inr (Or.inr (Or.inr ⟨by rw [haddr]; exact hset, rfl⟩)))))
    rw [← haddr]
    exact hheld
  · rfl

end KeysIndexed

end Camex

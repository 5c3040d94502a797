import Camex.Concrete
import Camex.Server.ClientIndexOps
import Camex.Server.InitEntry

/-!
# Lookups by index

`tableMachine` is the client table with its indexes, taking operations on its slots in any order with any answers of
the allocator. In every state it reaches, the three lookups answer what the scans of the table do
(`indexedLookups`). Every table of a reachable server is one of these (`serverTable_indexed`).
-/

namespace Camex

open Lib

variable {n : ℕ}

/-- The table with its indexes, from `server_clients_init` on. -/
def tableMachine (n : ℕ) : Machine (IndexedTable n) (TableOp n) where
  start t := ∃ mem, t = clientsInit mem
  next t o := some (applyOp t o)

theorem keysIndexed_reachable {t : IndexedTable n} (h : (tableMachine n).Reachable t) : KeysIndexed t := by
  refine h.invariant (I := KeysIndexed) ?_ fun t o t' ht _ hnext => ?_
  · rintro _ ⟨mem, rfl⟩
    exact .clientsInit mem
  · rw [← Option.some.inj hnext]
    exact ht.applyOp o

/-- **Indexed lookups equal scans.** -/
theorem indexedLookups {t : IndexedTable n} (h : (tableMachine n).Reachable t) :
    (∀ ip, t.findByIp ip = serverFindByIp t.clients ip) ∧
      (∀ clientId, t.findByClientId clientId = serverFindByClientId t.clients clientId) ∧
      ∀ addr, t.findByAddr addr = serverFindByAddr t.clients addr :=
  ⟨(keysIndexed_reachable h).findByIp, (keysIndexed_reachable h).findByClientId, (keysIndexed_reachable h).findByAddr⟩

/-- Memory for everything but a bigger table. -/
def toyMem (grow : Bool) : ℕ → AddMem 2 := fun _ => ⟨grow, ⟨true, true, true, fun _ _ => true⟩⟩

/-- A client with two sessions moves to its offered address; its slot is then used by another one. -/
def toyOps : List (TableOp 2) :=
  [⟨0, .take 7 100, toyMem true⟩, ⟨0, .setId (ascii "a"), toyMem true⟩, ⟨0, .setAddr (toySource 1 1000), toyMem true⟩,
    ⟨0, .assignIp 5, toyMem true⟩, ⟨0, .setCur { Session.wiped with valid := true }, toyMem true⟩,
    ⟨0, .assignIp 6, toyMem false⟩, ⟨0, .promote 101, toyMem true⟩, ⟨1, .take 8 102, toyMem true⟩,
    ⟨1, .assignIp 5, toyMem true⟩, ⟨0, .drop, toyMem true⟩, ⟨0, .take 9 103, toyMem true⟩,
    ⟨0, .setId (ascii "B"), toyMem true⟩]

theorem indexedLookups_reused : ∃ t : IndexedTable 2, t.idx.ok = true ∧
    t.findByIp 5 = some 1 ∧ t.findByIp 6 = none ∧ t.findByClientId (ascii "b") = some 0 ∧
      t.findByClientId (ascii "a") = none ∧ t.findByAddr (toySource 1 1000) = none := by
  obtain ⟨t, ht, hp⟩ := Machine.runUnder_reachable (M := tableMachine 2) (C := fun _ _ => True)
    (s := clientsInit ((toyMem true) 0).rebuild) (l := toyOps)
    (p := fun t => t.idx.ok && (serverFindByIp t.clients 5 == some 1 && (serverFindByIp t.clients 6 == none &&
      (serverFindByClientId t.clients (ascii "b") == some 0 && (serverFindByClientId t.clients (ascii "a") == none &&
        serverFindByAddr t.clients (toySource 1 1000) == none)))))
    ⟨_, rfl⟩ (by decide +kernel)
  simp only [Bool.and_eq_true, beq_iff_eq] at hp
  obtain ⟨hip, hid, haddr⟩ := indexedLookups ht
  exact ⟨t, hp.1, (hip 5).trans hp.2.1, (hip 6).trans hp.2.2.1, (hid _).trans hp.2.2.2.1,
    (hid _).trans hp.2.2.2.2.1, (haddr _).trans hp.2.2.2.2.2⟩

/-! ## The server's table -/

def EntryOps : ServerClient → ServerClient → Prop := Relation.ReflTransGen fun c c' => ∃ op : SlotOp, c' = op.entry c

theorem EntryOps.op (c : ServerClient) (op : SlotOp) : EntryOps c (op.entry c) := .single ⟨op, rfl⟩

/-- An entry with another current and next session, addresses, ID and peer; the previous session stays one or none. -/
theorem entryOps_of_prev {c c' : ServerClient} (hactive : c'.active = c.active)
    (hprev : c'.prev.valid = c.prev.valid) (hprevIp : c'.prevIpBe = c.prevIpBe)
    (hid : c'.clientId = c.clientId ∨ c'.clientId.length < CAMEX_CLIENT_ID_LEN) : EntryOps c c' := by
  have hid' : serverSetId c c'.clientId = { c with clientId := c'.clientId } := by
    unfold serverSetId
    split
    · rename_i heq
      rw [← heq]
    · rename_i hne
      rw [store_of_lt (hid.resolve_left fun h => hne h.symm)]
  have hops : EntryOps c (SlotOp.entry (.touch c') (SlotOp.entry (.usePrev c'.prev) (SlotOp.entry (.setNext c'.next)
      (SlotOp.entry (.setCur c'.cur) (SlotOp.entry (.restoreIp c'.ipBe c'.pendingIpBe)
        (SlotOp.entry (.setAddr c'.addr) (SlotOp.entry (.setId c'.clientId) c))))))) :=
    (EntryOps.op _ _).trans <| (EntryOps.op _ _).trans <| (EntryOps.op _ _).trans <| (EntryOps.op _ _).trans <|
      (EntryOps.op _ _).trans <| (EntryOps.op _ _).trans <| EntryOps.op _ _
  have heq : SlotOp.entry (.touch c') (SlotOp.entry (.usePrev c'.prev) (SlotOp.entry (.setNext c'.next)
      (SlotOp.entry (.setCur c'.cur) (SlotOp.entry (.restoreIp c'.ipBe c'.pendingIpBe)
        (SlotOp.entry (.setAddr c'.addr) (SlotOp.entry (.setId c'.clientId) c)))))) = c' := by
    simp only [SlotOp.entry, hid', serverSetAddr, serverRestoreIp, serverSetIp, ServerClient.withKeysOf]
    rw [← hactive, ← hprev, ← hprevIp]
  rwa [heq] at hops

theorem Vacant.entryOps (c : ServerClient) {c' : ServerClient} (h : Vacant c') : EntryOps c c' := by
  have hid : c'.clientId.length < CAMEX_CLIENT_ID_LEN := by
    rw [h.clientId]
    decide
  cases hactive : c'.active with
  | true =>
    exact (EntryOps.op c (.take 0 0)).trans
      (entryOps_of_prev hactive (by rw [h.prev]; rfl) h.prevIpBe (Or.inr hid))
  | false =>
    exact (EntryOps.op c .drop).trans (entryOps_of_prev hactive (by rw [h.prev]; rfl) h.prevIpBe (Or.inr hid))

theorem Retained.entryOps {c c' : ServerClient} (h : Retained c c') : EntryOps c c' := by
  rcases h.prev with ⟨hprev, hprevIp⟩ | ⟨hprev, hprevIp⟩
  · exact entryOps_of_prev h.active hprev.valid hprevIp (Or.inl h.clientId)
  · exact (EntryOps.op c .clearPrev).trans (entryOps_of_prev h.active (by rw [hprev]; rfl) hprevIp (Or.inl h.clientId))

theorem Promoted.entryOps {c c' : ServerClient} (h : Promoted c c') : EntryOps c c' :=
  (EntryOps.op c (.promote 0)).trans
    (entryOps_of_prev (h.active.trans rfl) (by rw [h.prev]; rfl) (h.prevIpBe.trans rfl)
      (Or.inl (h.clientId.trans rfl)))

theorem Changed.entryOps {c c' : ServerClient} (h : Changed c c') : EntryOps c c' := by
  cases h with
  | retained h => exact h.entryOps
  | promoted h => exact h.entryOps
  | vacated h => exact h.entryOps c

variable {Hs : Type} {N : Noise Hs}

theorem InitFate.entryOps {s : Server n} {pkt : Bytes} {src : SockAddr} {fd : ℤ} {j : Fin n} {o : InitOutcome n}
    {c' : ServerClient} (h : InitFate N s pkt src fd j o c') : EntryOps (s.clients j) c' := by
  have htaken : ∀ {r : Register} {fresh : Bool} {before c : ServerClient}, Taken s r src fd j fresh before →
      Carries N s.conf pkt r → c.clientId = r.clientId → c.active = before.active → c.prev = before.prev →
      c.prevIpBe = before.prevIpBe → EntryOps (s.clients j) c := by
    intro r fresh before c ht hr hid hactive hprev hprevIp
    have hlt : c.clientId.length < CAMEX_CLIENT_ID_LEN := by
      rw [hid]
      exact hr.idShort
    cases fresh with
    | true =>
      rw [ht.eq_fresh] at hactive hprev hprevIp
      exact (EntryOps.op _ (.take 0 0)).trans (entryOps_of_prev hactive (by rw [hprev]; rfl) hprevIp (Or.inr hlt))
    | false =>
      rw [ht.eq] at hactive hprev hprevIp
      exact entryOps_of_prev hactive (congrArg Session.valid hprev) hprevIp (Or.inr hlt)
  cases h with
  | alone h _ => exact (Retained.of_core h).entryOps
  | adopted hc _ _ _ _ _ _ _ _ _ _ => exact hc ▸ vacant_wiped.entryOps _
  | unused hc _ _ _ _ _ => exact hc ▸ vacant_wiped.entryOps _
  | restored r hr _ ht h _ =>
    exact htaken ht hr (by rw [h.eq]) (by rw [h.eq]) (by rw [h.eq]) (by rw [h.eq])
  | accepted r hr _ ht m h _ _ =>
    exact htaken ht hr (by rw [h.eq]) (by rw [h.eq]) (by rw [h.eq]) (by rw [h.eq])

theorem serverStep_entryOps (s : Server n) (e : Event n) (j : Fin n) :
    EntryOps (s.clients j) ((serverStep N s e).1.clients j) := by
  have hcase := serverStep_case N s e
  by_cases hno : ∀ o, (serverStep N s e).2 ≠ some (.init o)
  · exact (hcase.changed hno j).entryOps
  · generalize serverStep N s e = x at hcase hno
    cases hcase with
    | init c _ hread _ =>
      have hfate := (serverHandleInit_fate (N := N) c.server c.env c.packet c.src c.fd j).entryOps
      exact (hread.retained j).entryOps.trans hfate
    | data c _ _ _ => exact absurd (fun o => by simp) hno
    | ignored c _ _ => exact absurd (fun o => by simp) hno
    | quiet _ => exact absurd (fun o => by simp) hno
    | reload _ _ _ _ => exact absurd (fun o => by simp) hno

/-- Operations on one slot of a table reached. -/
theorem EntryOps.indexed {c c' : ServerClient} (h : EntryOps c c') (i : Fin n) {t : IndexedTable n}
    (ht : (tableMachine n).Reachable t) (hc : t.clients i = c) :
    ∃ t', (tableMachine n).Reachable t' ∧ t'.clients = Function.update t.clients i c' := by
  induction h with
  | refl => exact ⟨t, ht, by rw [← hc, Function.update_eq_self]⟩
  | @tail c₁ c₂ _ hop ih =>
    obtain ⟨t', ht', hclients⟩ := ih
    obtain ⟨op, rfl⟩ := hop
    refine ⟨applyOp t' ⟨i, op, fun _ => ⟨true, ⟨true, true, true, fun _ _ => true⟩⟩⟩, ht'.step trivial rfl, ?_⟩
    rw [clients_applyOp, hclients, Function.update_self, Function.update_idem]

/-- Operations slot by slot lead from table to table. -/
theorem tables_indexed {t : IndexedTable n} (ht : (tableMachine n).Reachable t) {clients : Table n}
    (h : ∀ i, EntryOps (t.clients i) (clients i)) :
    ∃ t', (tableMachine n).Reachable t' ∧ t'.clients = clients := by
  suffices hsome : ∀ is : List (Fin n), ∃ t', (tableMachine n).Reachable t' ∧
      ∀ j, t'.clients j = if j ∈ is then clients j else t.clients j by
    obtain ⟨t', ht', hclients⟩ := hsome (List.finRange n)
    exact ⟨t', ht', funext fun j => by rw [hclients, if_pos (List.mem_finRange j)]⟩
  intro is
  induction is with
  | nil => exact ⟨t, ht, fun j => by simp⟩
  | cons i is ih =>
    obtain ⟨t', ht', hclients⟩ := ih
    have hi : EntryOps (t'.clients i) (clients i) := by
      rw [hclients i]
      split
      · exact .refl
      · exact h i
    obtain ⟨t'', ht'', hclients'⟩ := hi.indexed i ht' rfl
    refine ⟨t'', ht'', fun j => ?_⟩
    rw [hclients']
    by_cases hj : j = i
    · subst hj
      simp
    · rw [Function.update_of_ne hj, hclients j]
      simp [hj]

/-- **The table of a reachable server** is one that the operations reach, so its lookups by index equal its scans. -/
theorem serverTable_indexed {s : Server n} (h : Machine.Reachable (serverMachine N n) s) :
    ∃ t, (tableMachine n).Reachable t ∧ t.clients = s.clients := by
  refine h.invariant (I := fun s => ∃ t, (tableMachine n).Reachable t ∧ t.clients = s.clients) ?_ ?_
  · rintro _ ⟨cfg, db, ctx, mem, ks, now, leases, -, rfl⟩
    exact ⟨clientsInit ⟨true, true, true, fun _ _ => true⟩, ⟨_, [], ⟨_, rfl⟩, .nil _⟩, rfl⟩
  · rintro s e s' ⟨t, ht, hclients⟩ _ hnext
    rw [serverMachine_next hnext]
    exact tables_indexed ht fun i => hclients ▸ serverStep_entryOps s e i

end Camex

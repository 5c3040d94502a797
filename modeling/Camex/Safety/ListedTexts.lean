import Camex.Safety.NameText
import Camex.Server.Listing

/-!
# What the lists can hold

* `FileTexts`: the IDs, names, ports and the domain of a file that is read, whatever it says;
* `CanHold`: a state that the server can have when it lists its clients.
-/

namespace Camex

open Lib

/-- A `peer_port` of the file: not set, none, or a port. -/
def PortSet (v : ℤ) : Prop := v = 0 ∨ v = -1 ∨ 1 ≤ v ∧ v ≤ 65535

/-- The texts that a file leaves. -/
structure FileTexts (st : Loading (List ClientSection)) : Prop where
  ids : ∀ c ∈ st.store, c.clientId ≠ [] ∧ c.clientId.length < CAMEX_CLIENT_ID_LEN ∧ c.active = true ∧
    ∀ b ∈ c.clientId, b ≠ 0
  names : ∀ c ∈ st.store, c.name = [] ∨ camexNameValid c.name = true
  ports : ∀ c ∈ st.store, PortSet c.profile.peerPort
  defaults : PortSet st.defaults.peerPort
  domain : st.globals.domain = [] ∨ validHostname st.globals.domain = true

theorem FileTexts.start : FileTexts (.start []) where
  ids := by simp [Loading.start]
  names := by simp [Loading.start]
  ports := by simp [Loading.start]
  defaults := Or.inl rfl
  domain := Or.inl rfl

theorem parsePeerPort_set {value : CStr} {v : ℤ} (h : parsePeerPort value = some v) : PortSet v := by
  unfold parsePeerPort at h
  split at h
  · cases h
    exact Or.inr (Or.inl rfl)
  · split at h
    · cases h
    · split at h
      · split at h
        · cases h
        · rename_i hrange
          cases h
          rw [not_or, not_lt, not_lt] at hrange
          exact Or.inr (Or.inr hrange)
      · cases h

theorem configDbApplyKv_port {p p' : Profile} {key value : CStr} (h : configDbApplyKv p key value = some p')
    (hp : PortSet p.peerPort) : PortSet p'.peerPort := by
  unfold configDbApplyKv at h
  split at h
  · obtain ⟨v, -, rfl⟩ := Option.map_eq_some_iff.mp h
    exact hp
  split at h
  · obtain ⟨v, -, rfl⟩ := Option.map_eq_some_iff.mp h
    exact hp
  split at h
  · obtain ⟨rfl, -⟩ := configProfileAppendRoute_some h
    exact hp
  split at h
  · obtain ⟨v, -, rfl⟩ := Option.map_eq_some_iff.mp h
    exact hp
  split at h
  · obtain ⟨v, -, rfl⟩ := Option.map_eq_some_iff.mp h
    exact hp
  split at h
  · obtain ⟨v, hv, rfl⟩ := Option.map_eq_some_iff.mp h
    exact parsePeerPort_set hv
  · cases h
    exact hp

theorem clientKv_texts {key value : CStr} {c c' : ClientSection} (h : clientKv key value c = some c')
    (hname : c.name = [] ∨ camexNameValid c.name = true) (hport : PortSet c.profile.peerPort) :
    (c'.name = [] ∨ camexNameValid c'.name = true) ∧ PortSet c'.profile.peerPort := by
  unfold clientKv at h
  split at h
  · split at h
    · rename_i hvalid
      cases h
      have hlen : value.length ≤ CAMEX_NAME_MAX := by
        unfold camexNameValid at hvalid
        rw [Bool.and_eq_true, decide_eq_true_eq] at hvalid
        exact hvalid.1.2
      refine ⟨Or.inr ?_, hport⟩
      change camexNameValid (store 65 value) = true
      rwa [store_of_lt (show value.length < 65 from Nat.lt_succ_of_le hlen)]
    · cases h
  · obtain ⟨p, hp, rfl⟩ := Option.map_eq_some_iff.mp h
    exact ⟨hname, configDbApplyKv_port hp hport⟩

/-- A key of `[server]` that leaves the domain alone. -/
theorem domain_stored {α : Type} {r : Option α} {f : α → ServerSection} {g g' : ServerSection} (h : r.map f = some g')
    (hf : ∀ v, (f v).domain = g.domain) (hg : g.domain = [] ∨ validHostname g.domain = true) :
    g'.domain = [] ∨ validHostname g'.domain = true := by
  obtain ⟨v, -, rfl⟩ := Option.map_eq_some_iff.mp h
  rwa [hf v]

theorem serverKv_domain {g g' : ServerSection} {key value : CStr} (h : serverKv g key value = some g')
    (hg : g.domain = [] ∨ validHostname g.domain = true) : g'.domain = [] ∨ validHostname g'.domain = true := by
  unfold serverKv at h
  split at h
  · rename_i k hk
    have hmem := List.mem_of_find?_eq_some hk
    clear hk
    simp only [serverKeys, List.mem_cons, List.not_mem_nil, or_false] at hmem
    rcases hmem with rfl | rfl | rfl | rfl | rfl | rfl | rfl | rfl | rfl | rfl | rfl | rfl | rfl | rfl | rfl | rfl |
      rfl | rfl | rfl
    all_goals dsimp only at h
    case inr.inr.inr.inr.inr.inr.inr.inr.inr.inr.inr.inr.inr.inr.inr.inr.inl =>
      split at h
      · cases h
      · rename_i hvalid
        obtain ⟨v, hv, rfl⟩ := Option.map_eq_some_iff.mp h
        obtain ⟨rfl, -⟩ := copyOption_some hv
        exact Or.inr (by simpa using hvalid)
    all_goals first
      | exact domain_stored h (fun _ => rfl) hg
      | cases h
  · cases h
    exact hg

/-- The bytes of a trimmed text are bytes of the text. -/
theorem trimWhitespace_mem {text : CStr} {b : UInt8} (h : b ∈ trimWhitespace text) : b ∈ text := by
  unfold trimWhitespace at h
  rw [List.mem_reverse] at h
  have hmid := (List.dropWhile_sublist _).subset h
  rw [List.mem_reverse] at hmid
  exact (List.dropWhile_sublist _).subset hmid

theorem configLineOf_client {text clientId : CStr} (h : configLineOf text = .client clientId) :
    clientId ≠ [] ∧ ∀ b ∈ clientId, b ∈ text := by
  unfold configLineOf at h
  dsimp only at h
  split at h
  · cases h
  split at h
  · split at h
    · cases h
    · unfold sectionLine at h
      split at h
      · cases h
      split at h
      · cases h
      split at h
      · split at h
        · cases h
        · rename_i hne
          cases h
          refine ⟨hne, fun b hb => ?_⟩
          have hdrop := (List.drop_sublist _ _).subset (trimWhitespace_mem hb)
          have htail := trimWhitespace_mem hdrop
          exact trimWhitespace_mem ((List.dropLast_sublist _).subset (List.mem_of_mem_tail htail))
      · cases h
  · split at h
    · cases h
    · split at h <;> cases h

theorem FileTexts.of_current {st : Loading (List ClientSection)} (h : FileTexts st) (current : Section) :
    FileTexts { st with current := current } := ⟨h.ids, h.names, h.ports, h.defaults, h.domain⟩

theorem FileTexts.getSlot {st : Loading (List ClientSection)} (h : FileTexts st) {clientId : CStr}
    (hid : ∀ b ∈ clientId, b ≠ 0) : FileTexts { st with store := (listStore.getSlot st.store clientId).1 } := by
  unfold listStore
  dsimp only
  cases st.store.findIdx? fun c => c.active && strcaseeq c.clientId clientId with
  | some i => exact h
  | none =>
    dsimp only
    split
    · exact h
    · rename_i hroom
      rw [not_or, not_or, not_le] at hroom
      obtain ⟨hne, hshort, -⟩ := hroom
      refine ⟨fun x hx => ?_, fun x hx => ?_, fun x hx => ?_, h.defaults, h.domain⟩
      · rcases List.mem_append.mp hx with hx | hx
        · exact h.ids x hx
        · rw [List.mem_singleton.mp hx]
          exact ⟨hne, hshort, rfl, hid⟩
      · rcases List.mem_append.mp hx with hx | hx
        · exact h.names x hx
        · rw [List.mem_singleton.mp hx]
          exact Or.inl rfl
      · rcases List.mem_append.mp hx with hx | hx
        · exact h.ports x hx
        · rw [List.mem_singleton.mp hx]
          exact Or.inl rfl

theorem FileTexts.change {st : Loading (List ClientSection)} (h : FileTexts st) (slot : ℕ) (key value : CStr) :
    FileTexts { st with store := (listStore.change st.store slot (clientKv key value)).1 } := by
  unfold listStore
  dsimp only
  cases hc : st.store[slot]? with
  | none => exact h
  | some c =>
    have hmem := List.mem_of_getElem? hc
    dsimp only
    cases hkv : clientKv key value c with
    | none => exact h
    | some c' =>
      obtain ⟨hid, hactive, -⟩ := clientKv_some hkv
      obtain ⟨hname, hport⟩ := clientKv_texts hkv (h.names c hmem) (h.ports c hmem)
      refine ⟨fun x hx => ?_, fun x hx => ?_, fun x hx => ?_, h.defaults, h.domain⟩
      · rcases List.mem_or_eq_of_mem_set hx with hx | rfl
        · exact h.ids x hx
        · rw [hid, hactive]
          exact h.ids c hmem
      · rcases List.mem_or_eq_of_mem_set hx with hx | rfl
        · exact h.names x hx
        · exact hname
      · rcases List.mem_or_eq_of_mem_set hx with hx | rfl
        · exact h.ports x hx
        · exact hport

theorem FileTexts.line {st : Loading (List ClientSection)} (h : FileTexts st) {text : CStr}
    (htext : ∀ b ∈ text, b ≠ 0) : FileTexts (configLine listStore st text).1 := by
  unfold configLine
  cases hline : configLineOf text with
  | blank => exact h
  | bad => exact h
  | server => exact h.of_current .server
  | defaults => exact h.of_current .defaults
  | client clientId =>
    have hslot := h.getSlot fun b hb => htext b ((configLineOf_client hline).2 b hb)
    dsimp only
    cases hget : listStore.getSlot st.store clientId with
    | mk store slot =>
      rw [hget] at hslot
      cases slot with
      | none => exact hslot
      | some slot => exact hslot.of_current (.client slot)
  | value key value =>
    dsimp only
    unfold configValue
    split
    · exact h
    · split
      · exact h
      · rename_i hkv
        exact ⟨h.ids, h.names, h.ports, h.defaults, serverKv_domain hkv h.domain⟩
    · split
      · exact h
      · split
        · exact h
        · rename_i hkv
          exact ⟨h.ids, h.names, h.ports, configDbApplyKv_port hkv h.defaults, h.domain⟩
    · exact h.change _ key value

theorem fgetsLines_text (size fuel : ℕ) (data : Bytes) : ∀ text ∈ fgetsLines size fuel data, ∀ b ∈ text, b ≠ 0 := by
  induction fuel generalizing data with
  | zero => simp [fgetsLines]
  | succ fuel ih =>
    unfold fgetsLines
    split
    · simp
    · exact List.forall_mem_cons.mpr ⟨untilNul_ne_zero _, ih _⟩

/-- **What every file leaves.** -/
theorem fileTexts_parse (file : ConfigSource) : FileTexts (configDbParseFile listStore [] file).1 := by
  unfold configDbParseFile
  split
  · exact .start
  · exact .start
  · exact .start
  · rename_i data
    have hlines := configLines_invariant_of listStore (P := FileTexts) (fun st text htext h => h.line htext) .start
      (fgetsLines_text 511 data.length data)
    cases hc : configLines listStore (.start []) (fgetsLines 511 data.length data) with
    | mk st ok =>
      rw [hc] at hlines
      cases ok with
      | false => exact hlines
      | true => exact ⟨hlines.ids, hlines.names, hlines.ports, hlines.defaults, hlines.domain⟩

/-! ## A domain -/

theorem mem_of_splitOnP {α : Type} {p : α → Bool} {xs : List α} {x : α} (h : x ∈ xs) :
    p x = true ∨ ∃ part ∈ xs.splitOnP p, x ∈ part := by
  induction xs with
  | nil => cases h
  | cons y ys ih =>
    rw [List.splitOnP_cons_eq_if_modifyHead]
    split
    · rename_i hy
      rcases List.mem_cons.mp h with rfl | h
      · exact Or.inl hy
      · exact (ih h).imp_right fun ⟨part, hpart, hx⟩ => ⟨part, List.mem_cons_of_mem _ hpart, hx⟩
    · obtain ⟨part, parts, hsplit⟩ := List.exists_cons_of_ne_nil (List.splitOnP_ne_nil p ys)
      rw [hsplit] at ih ⊢
      rcases List.mem_cons.mp h with rfl | h
      · exact Or.inr ⟨_, List.mem_cons_self .., List.mem_cons_self ..⟩
      · rcases ih h with hsep | ⟨u, hu, hx⟩
        · exact Or.inl hsep
        rcases List.mem_cons.mp hu with rfl | hu
        · exact Or.inr ⟨_, List.mem_cons_self .., List.mem_cons_of_mem _ hx⟩
        · exact Or.inr ⟨u, List.mem_cons_of_mem _ hu, hx⟩

theorem hostname_byte {name : CStr} (h : validHostname name = true) {b : UInt8} (hb : b ∈ name) :
    toLower b = 46 ∨ isLabelByte (toLower b) = true := by
  unfold validHostname hostLabels at h
  have hlabels := List.all_eq_true.mp (Bool.and_eq_true_iff.mp h).2
  rcases mem_of_splitOnP (p := (· == 46)) (List.mem_map_of_mem (f := toLower) hb) with hsep | ⟨label, hlabel, hmem⟩
  · exact Or.inl (beq_iff_eq.mp hsep)
  · have hvalid := hlabels label hlabel
    unfold validLabel at hvalid
    exact Or.inr (List.all_eq_true.mp (Bool.and_eq_true_iff.mp hvalid).2 _ hmem)

/-! ## States -/

/-- **A state that the server can have**: a file that was accepted, and IDs that are C strings of their field. -/
structure CanHold {n : ℕ} (s : Listing n) : Prop where
  file : ∃ source, configDbParseFile listStore [] source = (s.file, true)
  ids : ∀ i, (s.clients i).clientId.length < CAMEX_CLIENT_ID_LEN ∧ ∀ b ∈ (s.clients i).clientId, b ≠ 0

theorem CanHold.texts {n : ℕ} {s : Listing n} (h : CanHold s) : FileTexts s.file := by
  obtain ⟨source, hsource⟩ := h.file
  have htexts := fileTexts_parse source
  rwa [hsource] at htexts

/-! ## Clients and sections -/

variable {n : ℕ}

theorem mem_live {s : Listing n} {c : ServerClient} :
    c ∈ s.live ↔ (∃ i, s.clients i = c) ∧ listed c = true := by
  unfold Listing.live
  rw [List.mem_filter, List.mem_map]
  simp

theorem mem_sections {s : Listing n} {p : ClientSection} :
    p ∈ s.sections ↔ p ∈ s.file.store ∧ p.active = true ∧ p.clientId ≠ [] := by
  unfold Listing.sections
  rw [List.mem_filter]
  simp

theorem findSection_some {file : Loading (List ClientSection)} {clientId : CStr} {p : ClientSection}
    (h : findSection file clientId = some p) : p ∈ file.store := by
  unfold findSection at h
  split at h
  · cases h
  · exact List.mem_of_find?_eq_some h

theorem configDbPeerPort_set {file : Loading (List ClientSection)} (h : FileTexts file) (clientId : CStr) :
    configDbPeerPort file clientId = -1 ∨
      1 ≤ configDbPeerPort file clientId ∧ configDbPeerPort file clientId ≤ 65535 := by
  have hdefault : ∀ v, PortSet v → (if v ≠ 0 then v else CAMEX_PEER_PORT_DEFAULT) = -1 ∨
      1 ≤ (if v ≠ 0 then v else CAMEX_PEER_PORT_DEFAULT) ∧ (if v ≠ 0 then v else CAMEX_PEER_PORT_DEFAULT) ≤ 65535 := by
    rintro v (rfl | rfl | ⟨hlow, hhigh⟩)
    · exact Or.inr (by decide)
    · exact Or.inl rfl
    · rw [if_pos (by omega)]
      exact Or.inr ⟨hlow, hhigh⟩
  unfold configDbPeerPort
  apply hdefault
  cases hfind : findSection file clientId with
  | none => exact h.defaults
  | some p =>
    dsimp only
    split
    · exact h.ports p (findSection_some hfind)
    · exact h.defaults

theorem matchId_listed {c : ServerClient} {clientId : CStr} (hid : clientId ≠ []) (h : matchId c clientId = true) :
    listed c = (c.registered && c.ipBe != 0) := by
  unfold matchId at h
  obtain ⟨hactive, hsame⟩ := Bool.and_eq_true_iff.mp h
  have hsome : c.clientId ≠ [] := fun hnil => hid (strcaseeq_nil.mp (strcaseeq_symm (hnil ▸ hsame)))
  unfold listed
  rw [hactive, Bool.true_and, bne_iff_ne.mpr hsome, Bool.and_true]

/-- A section is connected when the first entry with its ID is listed. -/
theorem connected_iff {s : Listing n} {p : ClientSection} (hid : p.clientId ≠ []) : connected s p = true ↔
    ∃ j, listed (s.clients j) = true ∧ matchId (s.clients j) p.clientId = true ∧
      ∀ i < j, matchId (s.clients i) p.clientId = false := by
  unfold connected serverFindByClientId
  rw [if_neg hid]
  constructor
  · intro h
    cases hfind : lowest fun i => matchId (s.clients i) p.clientId with
    | none =>
      rw [hfind] at h
      cases h
    | some j =>
      rw [hfind] at h
      obtain ⟨hmatch, hbelow⟩ := lowest_eq_some.mp hfind
      exact ⟨j, (matchId_listed hid hmatch).trans h, hmatch, hbelow⟩
  · rintro ⟨j, hlisted, hmatch, hbelow⟩
    rw [lowest_eq_some.mpr ⟨hmatch, hbelow⟩]
    exact (matchId_listed hid hmatch).symm.trans hlisted

theorem live_matchId {s : Listing n} {clientId : CStr} : (s.live.any fun c => strcaseeq c.clientId clientId) = true ↔
    ∃ j, listed (s.clients j) = true ∧ matchId (s.clients j) clientId = true := by
  rw [List.any_eq_true]
  constructor
  · rintro ⟨c, hc, hsame⟩
    obtain ⟨⟨j, rfl⟩, hlisted⟩ := mem_live.mp hc
    refine ⟨j, hlisted, Bool.and_eq_true_iff.mpr ⟨?_, hsame⟩⟩
    unfold listed at hlisted
    simp only [Bool.and_eq_true] at hlisted
    exact hlisted.1.1.1
  · rintro ⟨j, hlisted, hmatch⟩
    exact ⟨s.clients j, mem_live.mpr ⟨⟨j, rfl⟩, hlisted⟩, (Bool.and_eq_true_iff.mp hmatch).2⟩

theorem connected_live {s : Listing n} {p : ClientSection} (h : connected s p = true) :
    ∃ c ∈ s.live, strcaseeq c.clientId p.clientId = true := by
  have hid : p.clientId ≠ [] := by
    intro hnil
    unfold connected serverFindByClientId at h
    rw [if_pos hnil] at h
    cases h
  obtain ⟨j, hlisted, hmatch, -⟩ := (connected_iff hid).mp h
  exact List.any_eq_true.mp (live_matchId.mpr ⟨j, hlisted, hmatch⟩)

/-- A choice that keeps less, but as many, keeps the same. -/
theorem filter_same {α : Type} {l : List α} {p q : α → Bool} (hle : ∀ x ∈ l, p x = true → q x = true)
    (hlen : (l.filter p).length = (l.filter q).length) : ∀ x ∈ l, q x = true → p x = true := by
  have hboth : l.filter p = (l.filter q).filter p := by
    rw [List.filter_filter]
    refine List.filter_congr fun x hx => ?_
    cases hp : p x with
    | false => rfl
    | true => rw [hle x hx hp, Bool.and_true]
  rw [hboth, List.length_filter_eq_length_iff] at hlen
  exact fun x hx hq => hlen x (List.mem_filter.mpr ⟨hx, hq⟩)

/-- What a file of this text leaves, before any client registers. -/
def Listing.ofFile (text : CStr) : Listing 1 :=
  ⟨fun _ => .wiped, (configDbParseFile listStore [] (.content text)).1, 0⟩

theorem canHold_ofFile {text : CStr} (h : (configDbParseFile listStore [] (.content text)).2 = true) :
    CanHold (.ofFile text) where
  file := ⟨.content text, Prod.ext rfl h⟩
  ids := fun _ => ⟨by simp [Listing.ofFile, ServerClient.wiped, CAMEX_CLIENT_ID_LEN],
    fun b hb => absurd hb List.not_mem_nil⟩

end Camex

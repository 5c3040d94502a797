import Camex.ClientConcrete
import Camex.ClientMoves
import Camex.Concrete
import Camex.Server.Notes

/-!
# No nonce twice, no packet twice

Over a whole run of the server, through handshakes, rekeys, expired clients and reloads, and over a whole run of a
client, through rekeys, lost links and reconnects: with a key no nonce is sealed twice and no counter is taken twice.
What it takes is that every handshake gave keys of its own (`FreshKeys`).
-/

namespace Camex

open Lib

/-! ## The server -/

section Server

variable {n : ℕ} {Hs : Type} {N : Noise Hs}

theorem server_booked (hn : n ≤ 65534) {s : Server n} {log : List (ServerNote n)}
    (h : (serverLogged N n).Reachable (s, log)) (hfresh : FreshKeys (log.map ServerNote.note)) :
    Booked N (log.map ServerNote.note) s.held := by
  have hmap : ∀ log : List (ServerNote n), log.filterMap (fun a => some a.note) = log.map ServerNote.note :=
    fun log => by rw [← List.filterMap_eq_map]; rfl
  rw [← hmap] at hfresh ⊢
  refine booked_reachable N (serverMachine N n) Server.held (fun s hs => started_held hs)
    (fun s e t hreach hnext => ?_) (h.filterLog fun s log e _ => trivial) hfresh
  rw [hmap, serverMachine_next hnext]
  exact serverStep_notes hn hreach e

end Server

/-! ## The client -/

section Client

variable {C : Crypto} {ctx : ClientCtx}

variable (C) in
structure ClientBooked (c : ClientCore) (log : List SessionNote) : Prop where
  booked : Booked C.noise log c.held
  apart : c.cur.valid = true → c.prev.valid = true → c.cur.ident ≠ c.prev.ident

variable {c c' : ClientCore} {log : List SessionNote}

theorem ClientBooked.sameSessions (h : ClientBooked C c log) (hcur : c'.cur = c.cur) (hprev : c'.prev = c.prev) :
    ClientBooked C c' log := by
  refine ⟨h.booked.quiet ?_, ?_⟩
  · rintro y ⟨hv, hy⟩
    rw [hcur, hprev] at hy
    exact ⟨hv, hy⟩
  · rw [hcur, hprev]
    exact h.apart

theorem ClientBooked.wiped (h : ClientBooked C c log) (hcur : c'.cur = .wiped) (hprev : c'.prev = .wiped) :
    ClientBooked C c' log := by
  refine ⟨h.booked.quiet ?_, ?_⟩
  · rintro y ⟨hv, rfl | rfl⟩
    · rw [hcur] at hv
      cases hv
    · rw [hprev] at hv
      cases hv
  · rw [hcur]
    exact nofun

theorem ClientBooked.opened {x : Session} (h : ClientBooked C c log) (hfresh : FreshKeys (log ++ [.opened x.ident]))
    (hsent : x.sendN = 0) (hreplay : x.replay = .zero) (hcur : c'.cur = x)
    (hprev : c'.prev = if c.cur.valid then c.cur else .wiped) : ClientBooked C c' (log ++ [.opened x.ident]) := by
  have hold : c'.prev.valid = true → c'.prev = c.cur ∧ c.cur ∈ c.held := by
    intro hv
    rw [hprev] at hv ⊢
    split at hv
    · rename_i hcurv
      exact ⟨if_pos hcurv, hcurv, Or.inl rfl⟩
    · cases hv
  refine ⟨h.booked.opened hfresh hsent hreplay ?_, ?_⟩
  · rintro y ⟨hv, rfl | rfl⟩
    · exact Or.inl hcur
    · rw [(hold hv).1]
      exact Or.inr (hold hv).2
  · intro _ hv heq
    rw [hcur, (hold hv).1] at heq
    have hmade := h.booked.made _ (hold hv).2
    rw [← heq] at hmade
    exact hfresh.notMem hmade

theorem ClientBooked.sealed {x : Session} {plain packet : Bytes} {size : ℕ} (h : ClientBooked C c log)
    (hfresh : FreshKeys log)
    (hseal : sessionSeal C.noise c.cur plain size = some (packet, x)) (hcur : c'.cur = x) (hprev : c'.prev = c.prev) :
    ClientBooked C c' (log ++ [.sealed c.cur.ident c.cur.sendN plain packet]) := by
  obtain ⟨hvalid, hx⟩ := sessionSeal_session C.noise hseal
  have hident : x.ident = c.cur.ident := by rw [hx]; rfl
  refine ⟨h.booked.sealed hfresh ⟨hvalid, Or.inl rfl⟩ hseal ?_, ?_⟩
  · rintro y ⟨hv, rfl | rfl⟩
    · exact Or.inl hcur
    · rw [hprev] at hv ⊢
      exact Or.inr ⟨⟨hv, Or.inr rfl⟩, (h.apart hvalid hv).symm⟩
  · intro _ hv
    rw [hprev] at hv
    rw [hcur, hprev, hident]
    exact h.apart hvalid hv

theorem ClientBooked.takenCur {x : Session} {plain packet : Bytes} {size : ℕ} (h : ClientBooked C c log)
    (hfresh : FreshKeys log)
    (htake : sessionOpen C.noise c.cur packet size = some (plain, x)) (hcur : c'.cur = x) (hprev : c'.prev = c.prev) :
    ClientBooked C c' (log ++ [.taken c.cur.ident packet plain]) := by
  obtain ⟨hvalid, hx⟩ := sessionOpen_session C.noise htake
  have hident : x.ident = c.cur.ident := by rw [hx]; rfl
  refine ⟨h.booked.taken hfresh ⟨hvalid, Or.inl rfl⟩ htake ?_, ?_⟩
  · rintro y ⟨hv, rfl | rfl⟩
    · exact Or.inl hcur
    · rw [hprev] at hv ⊢
      exact Or.inr ⟨⟨hv, Or.inr rfl⟩, (h.apart hvalid hv).symm⟩
  · intro _ hv
    rw [hprev] at hv
    rw [hcur, hprev, hident]
    exact h.apart hvalid hv

theorem ClientBooked.takenPrev {x : Session} {plain packet : Bytes} {size : ℕ} (h : ClientBooked C c log)
    (hfresh : FreshKeys log)
    (htake : sessionOpen C.noise c.prev packet size = some (plain, x)) (hcur : c'.cur = c.cur) (hprev : c'.prev = x) :
    ClientBooked C c' (log ++ [.taken c.prev.ident packet plain]) := by
  obtain ⟨hvalid, hx⟩ := sessionOpen_session C.noise htake
  have hident : x.ident = c.prev.ident := by rw [hx]; rfl
  refine ⟨h.booked.taken hfresh ⟨hvalid, Or.inr rfl⟩ htake ?_, ?_⟩
  · rintro y ⟨hv, rfl | rfl⟩
    · rw [hcur] at hv ⊢
      exact Or.inr ⟨⟨hv, Or.inl rfl⟩, h.apart hv hvalid⟩
    · exact Or.inl hprev
  · intro hv _
    rw [hcur] at hv
    rw [hcur, hprev, hident]
    exact h.apart hv hvalid

theorem ClientMove.booked {s t : ClientLoop} {notes : List ClientNote} (hmove : ClientMove C ctx s notes t)
    {log : List ClientNote} (h : ClientBooked C s.core (log.filterMap ClientNote.note))
    (hfresh : FreshKeys ((log ++ notes).filterMap ClientNote.note)) :
    ClientBooked C t.core ((log ++ notes).filterMap ClientNote.note) := by
  rw [List.filterMap_append] at hfresh ⊢
  have hbefore := hfresh.before
  cases hmove with
  | kept hcore hopen => simpa [hcore] using h
  | spoiled hcore hdead =>
    rw [List.filterMap_nil, List.append_nil]
    exact h.sameSessions (by rw [hcore]) (by rw [hcore])
  | wiped hcore =>
    rw [List.filterMap_nil, List.append_nil]
    exact h.wiped (by rw [hcore]) (by rw [hcore])
  | init hbuilt hcore =>
    refine (?_ : ClientBooked C t.core (log.filterMap ClientNote.note ++ []))
    rw [List.append_nil]
    exact h.sameSessions (by rw [hcore]) (by rw [hcore])
  | opened hopen hpending hindex hread hcore =>
    exact h.opened hfresh (by rw [hcore]; rfl) (by rw [hcore]; rfl) rfl (by rw [hcore])
  | sealed hseal hcore hopen => exact h.sealed hbefore hseal (by rw [hcore]) (by rw [hcore])
  | takenCur htake hcore hopen => exact h.takenCur hbefore htake (by rw [hcore]) (by rw [hcore])
  | takenPrev htake hcore hopen => exact h.takenPrev hbefore htake (by rw [hcore]) (by rw [hcore])

theorem client_booked {s : ClientLoop} {log : List ClientNote} (h : (clientLogged C ctx).Reachable (s, log))
    (hfresh : FreshKeys (log.filterMap ClientNote.note)) :
    ClientBooked C s.core (log.filterMap ClientNote.note) := by
  refine clientMoves_invariant (I := fun s log => FreshKeys (log.filterMap ClientNote.note) →
    ClientBooked C s.core (log.filterMap ClientNote.note)) (fun config now _ => ?_)
    (fun s log notes t hs hmove hnew => hmove.booked (hs ?_) hnew) h hfresh
  · exact ⟨booked_nil (by rintro x ⟨hv, rfl | rfl⟩ <;> cases hv), nofun⟩
  · rw [List.filterMap_append] at hnew
    exact hnew.before

end Client

end Camex

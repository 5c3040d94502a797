import Camex.ClientPacket
import Camex.Server.PacketMemory

/-!
# Packets stay inside their arrays

Lengths are checked once, by `v2_packet_type`, and cut several times behind it: the mac, the header, the overhead of
the handshake, the timestamp, the NUL. On memory, where a cut below zero and an access outside an array stop the
program, nothing stops it.

* `packet_refines`: on memory both sides do with a packet what the functions on lists do;
* `packetBounds_right`: no packet stops the server or the client.
-/

namespace Camex

open Lib

/-- **The functions on memory** are those on lists, of a server whose answers have no NUL inside and of a client. -/
theorem packet_refines (C : Crypto) (pkt : Bytes) :
    (∀ n (s : Server n) env src fd,
      (∀ s₁ r hs e, initAuthenticate C.noise s env pkt src = (s₁, some (r, hs)) →
        serverEntryFor s₁ r src fd env.grow = some e → Raw.PlainReply e src fd r) →
      Raw.serverHandlePacket C s env (.start pkt) pkt.length src fd = .ok (serverHandlePacket C.noise s env pkt src fd)) ∧
    ∀ c o now, Raw.clientHandleNetPacket C c o now (.start pkt) pkt.length = .ok (clientHandleNetPacket C c o now pkt) := by
  refine ⟨fun n s env src fd hplain => ?_, fun c o now => Raw.clientHandleNetPacket_eq c o now (Slice.has_start pkt)⟩
  obtain ⟨x, hx, hrefines⟩ := Raw.serverHandlePacket_safe (C := C) s env (Slice.has_start pkt) src fd
  rw [hx, hrefines hplain]

/-- **Packet bounds**: whatever a packet is, whatever the cryptography computes and whatever the state, neither the
server nor the client takes a length below zero, reads outside the packet or an array, reads what was not written or
writes outside an array. -/
theorem packetBounds_right (C : Crypto) (pkt : Bytes) :
    (∀ n (s : Server n) env src fd, ∃ x, Raw.serverHandlePacket C s env (.start pkt) pkt.length src fd = .ok x) ∧
    ∀ c o now, ∃ x, Raw.clientHandleNetPacket C c o now (.start pkt) pkt.length = .ok x := by
  refine ⟨fun n s env src fd => ?_, fun c o now => ?_⟩
  · obtain ⟨x, hx, -⟩ := Raw.serverHandlePacket_safe (C := C) s env (Slice.has_start pkt) src fd
    exact ⟨x, hx⟩
  · exact ⟨_, Raw.clientHandleNetPacket_eq c o now (Slice.has_start pkt)⟩

end Camex

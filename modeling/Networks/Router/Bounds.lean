import Networks.Router.Handling

/-! Which frames the router reads and writes within their bounds. The length of a frame is
compared with too little of what is read afterwards.
-/

namespace Networks.Router

theorem clearIpSum_agree {packet : Frame} (long : 34 ≤ packet.length)
    : AgreeOutside 24 26 packet (clearIpSum packet) := by
  have inside : 24 + [(0 : UInt8), 0].length ≤ packet.length := by
    simp only [List.length_cons, List.length_nil]
    omega
  exact agreeOutside_overwrite inside

theorem clearIcmpSum_agree {packet : Frame} (long : 38 ≤ packet.length)
    : AgreeOutside 36 38 packet (clearIcmpSum packet) := by
  have inside : 36 + [(0 : UInt8), 0].length ≤ packet.length := by
    simp only [List.length_cons, List.length_nil]
    omega
  exact agreeOutside_overwrite inside

theorem decrementTtl_agree {packet : Frame} (long : 34 ≤ packet.length)
    : AgreeOutside 22 23 packet (decrementTtl packet) := by
  have inside : 22 + [ipTtl packet - 2].length ≤ packet.length := by
    simp only [List.length_singleton]
    omega
  exact agreeOutside_overwrite inside

theorem rewriteIpSum_agree {packet : Frame} (long : 34 ≤ packet.length)
    : AgreeOutside 24 26 packet (rewriteIpSum packet) := by
  have cleared := clearIpSum_agree long
  have inside : ∀ sum : UInt16,
      24 + (Ctcp.fieldBytes16 sum).length ≤ (clearIpSum packet).length := by
    intro sum
    rw [cleared.length]
    simp only [Ctcp.fieldBytes16, List.length_cons, List.length_nil]
    omega
  exact cleared.trans (agreeOutside_overwrite (inside _))

/-- The rewritten packet of a transit datagram differs in its TTL and its checksum. -/
theorem forwarded_agree {packet : Frame} (long : 34 ≤ packet.length)
    : AgreeOutside 22 26 packet (rewriteIpSum (decrementTtl packet)) := by
  have decremented := decrementTtl_agree long
  have stillLong : 34 ≤ (decrementTtl packet).length := by
    rw [decremented.length]
    exact long
  exact (decremented.widen (Nat.le_refl _) (by decide)).trans
    ((rewriteIpSum_agree stillLong).widen (by decide) (Nat.le_refl _))

-----------------------------------------------------------------------------------------
-- Forwarding and ICMP messages
-----------------------------------------------------------------------------------------

end Networks.Router

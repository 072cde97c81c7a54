import Storyboard.Proofs.Decode.Making
import Storyboard.Settings

/-! # Delays before reconnecting

    Each attempt to reconnect waits longer than the one before: its delay is
    the base delay as many times as its number says (`retry_ofMillis`). There
    is no longest base delay that settings accept but the largest number of
    64 bits, so the delay of a late attempt may be longer than any span, and
    then there is no answer. The first thousand attempts always have one
    (`ofToml_reconnect`). -/

namespace Storyboard

/-! ### Multiples of a delay -/

/-- Milliseconds are taken several times as long as the seconds they make up fit into 64 bits. -/
theorem Span.times?_ofMillis (b n : Nat) : (ofMillis b).times? n =
    if b * n < Nat.pow 2 64 * 1000 then some (ofMillis (b * n)) else none := by
  have hnanos : b * perMilli * n = b * n * perMilli := Nat.mul_right_comm b perMilli n
  have hfits : b * n * perMilli ≤ longest.nanos ↔ b * n < Nat.pow 2 64 * 1000 := by
    have hlongest : longest.nanos = Nat.pow 2 64 * 1000 * perMilli - 1 := by decide
    have hpow : Nat.pow 2 64 = 18446744073709551616 := by decide
    rw [hlongest, hpow, perMilli]
    omega
  unfold times? ofMillis
  rw [hnanos]
  simp only [hfits]

namespace ReconnectPolicy

variable {p : ReconnectPolicy} {m n attempts b : Nat} {d e : Span}

theorem retry_eq_never_iff : p.retry n = .never ↔ n = 0 ∨ p.attempts < n := by
  unfold retry
  split
  · next h =>
    refine iff_of_false ?_ (by omega)
    split <;> exact nofun
  · next h => exact iff_of_true rfl (by omega)

/-- An attempt that is made waits as many times the base delay as its number says, if that is a
    span. -/
theorem retry_of_made (hfirst : 1 ≤ n) (hlast : n ≤ p.attempts) :
    p.retry n = (p.base.times? n).elim .beyond .after := by
  unfold retry
  rw [if_pos ⟨hfirst, hlast⟩]
  cases p.base.times? n <;> rfl

/-- The delay of an attempt that is made, in milliseconds. -/
theorem retry_ofMillis (hfirst : 1 ≤ n) (hlast : n ≤ attempts) :
    retry ⟨attempts, .ofMillis b⟩ n =
      if b * n < Nat.pow 2 64 * 1000 then .after (.ofMillis (b * n)) else .beyond := by
  have hmade := retry_of_made (p := ⟨attempts, .ofMillis b⟩) hfirst hlast
  have htimes := Span.times?_ofMillis b n
  rw [hmade]
  show ((Span.ofMillis b).times? n).elim Retry.beyond Retry.after = _
  by_cases hfits : b * n < Nat.pow 2 64 * 1000
  · rw [if_pos hfits] at htimes ⊢
    rw [htimes, Option.elim_some]
  · rw [if_neg hfits] at htimes ⊢
    rw [htimes, Option.elim_none]

/-- As long as the seconds fit into 64 bits there is an answer. -/
theorem retry_ne_beyond (hfits : b * n < Nat.pow 2 64 * 1000) :
    retry ⟨attempts, .ofMillis b⟩ n ≠ .beyond := by
  by_cases hmade : 1 ≤ n ∧ n ≤ attempts
  · rw [retry_ofMillis hmade.1 hmade.2, if_pos hfits]
    exact nofun
  · rw [retry_eq_never_iff.2 (show n = 0 ∨ attempts < n by omega)]
    exact nofun

/-- A delay that is waited for is a multiple of the base delay. -/
theorem nanos_of_retry (h : p.retry n = .after d) : d.nanos = p.base.nanos * n := by
  unfold retry Span.times? at h
  split at h
  · split at h
    · next heq =>
      split at heq
      · cases heq
        cases h
        rfl
      · cases heq
    · cases h
  · cases h

/-- Later attempts wait longer. -/
theorem nanos_lt_of_retry (hbase : 0 < p.base.nanos) (hmn : m < n) (hm : p.retry m = .after d)
    (hn : p.retry n = .after e) : d.nanos < e.nanos := by
  rw [nanos_of_retry hm, nanos_of_retry hn]
  exact Nat.mul_lt_mul_of_pos_left hmn hbase

/-- All attempts have an answer if and only if the last one has. -/
theorem forall_retry_ne_beyond_iff :
    (∀ n, retry ⟨attempts, .ofMillis b⟩ n ≠ .beyond) ↔ b * attempts < Nat.pow 2 64 * 1000 := by
  constructor
  · intro h
    by_cases hnone : attempts = 0
    · simp [hnone]
    · have hlast := h attempts
      rw [retry_ofMillis (by omega) (Nat.le_refl _)] at hlast
      refine Decidable.byContradiction fun hlong => ?_
      exact hlast (if_neg hlong)
  · intro hfits n
    by_cases hn : n ≤ attempts
    · exact retry_ne_beyond (Nat.lt_of_le_of_lt (Nat.mul_le_mul_left b hn) hfits)
    · rw [retry_eq_never_iff.2 (.inr (Nat.lt_of_not_le hn))]
      exact nofun

end ReconnectPolicy

/-! ### Settings -/

open Decode Decode.Record

/-- The numbers of the channel fit into 32 and 64 bits. -/
def ChannelSettings.Fits (c : ChannelSettings) : Prop :=
  c.attempts < Nat.pow 2 32 ∧ c.baseDelayMs < Nat.pow 2 64

/-- A whole number is decoded up to a limit. -/
theorem Decode.natural_le {most : Nat} {kind : String} {o : Origin} {v : Json} {n : Nat}
    (h : natural most kind o v = .ok n) : n ≤ most := by
  cases v with
  | int i =>
    simp only [natural] at h
    split at h
    · next hi =>
      rw [← Except.ok.inj h]
      omega
    · cases h
  | _ => cases h

/-- A number with a default is up to the limit if the default is. -/
theorem Decode.Record.makes_natural {name kind : String} {most default : Nat}
    (h : default ≤ most) : (withDefault name (natural most kind) default).Makes (· ≤ most) :=
  Makes.field (fun _ _ _ hn => natural_le hn) fun _ hn => Option.some.inj hn ▸ h

namespace Settings

theorem channelRecord_fits : channelRecord.Makes ChannelSettings.Fits := by
  refine Makes.apply (Makes.apply (Makes.map ?_) (makes_natural (by decide)))
    (makes_natural (by decide))
  intro url attempts hattempts baseDelayMs hbase
  exact ⟨Nat.lt_of_le_of_lt hattempts (by decide), Nat.lt_of_le_of_lt hbase (by decide)⟩

theorem record_fits : record.Makes fun s => s.channel.Fits := by
  have hchannel : (withDefault "channel" (channelRecord.closedDecoder "struct ChannelConfig")
      usual.channel).Makes ChannelSettings.Fits := by
    refine Makes.field (fun _ _ c hc => channelRecord_fits.closedDecoder hc) ?_
    rintro c ⟨⟩
    exact ⟨by decide, by decide⟩
  refine Makes.seq (Makes.apply (Makes.seq (Makes.map ?_)) hchannel)
  exact fun _ _ _ hc _ => hc

/-- Settings that are accepted are the settings that were decoded. -/
theorem check_eq_ok {s s' : Settings} (h : s.check = .ok s') : s' = s := by
  unfold check at h
  obtain ⟨_, _, hchannel⟩ := exists_ok_of_bind h
  obtain ⟨_, _, hvoice⟩ := exists_ok_of_bind hchannel
  dsimp only at hvoice
  split at hvoice
  · cases hvoice
  · split at hvoice
    · cases hvoice
    · exact (Except.ok.inj hvoice).symm

/-- In settings that are accepted the numbers of the channel fit. -/
theorem ofToml_fits {source : String} {s : Settings} (h : ofToml source = .ok s) :
    s.channel.Fits := by
  unfold ofToml at h
  split at h
  · cases h
  · split at h
    · cases h
    · next s' hdecoded =>
      rw [check_eq_ok h]
      exact record_fits.closedDecoder hdecoded

variable {source : String} {s : Settings}

/-- With settings that are accepted an attempt is made when its number is one of the attempts that
    are set. It is made after so many times the base delay, and so later than the attempts before
    it, if the span is not too long, and has no answer otherwise. The spans of the first thousand
    attempts are never too long, and none is too long if that of the last attempt is not. -/
theorem ofToml_reconnect (h : ofToml source = .ok s) :
    (∀ n, s.reconnectPolicy.retry n = .never ↔ n = 0 ∨ s.channel.attempts < n) ∧
      (∀ n, 1 ≤ n → n ≤ s.channel.attempts → s.reconnectPolicy.retry n =
        if s.channel.baseDelayMs * n < Nat.pow 2 64 * 1000
        then .after (.ofMillis (s.channel.baseDelayMs * n)) else .beyond) ∧
      (∀ n ≤ 1000, s.reconnectPolicy.retry n ≠ .beyond) ∧
      ((∀ n, s.reconnectPolicy.retry n ≠ .beyond) ↔
        s.channel.baseDelayMs * s.channel.attempts < Nat.pow 2 64 * 1000) ∧
      ∀ m n d e, 0 < s.channel.baseDelayMs → m < n → s.reconnectPolicy.retry m = .after d →
        s.reconnectPolicy.retry n = .after e → d.nanos < e.nanos := by
  refine ⟨fun n => ReconnectPolicy.retry_eq_never_iff, fun n => ReconnectPolicy.retry_ofMillis,
    ?_, ReconnectPolicy.forall_retry_ne_beyond_iff, ?_⟩
  · intro n hn
    refine ReconnectPolicy.retry_ne_beyond ?_
    calc s.channel.baseDelayMs * n
      _ ≤ s.channel.baseDelayMs * 1000 := Nat.mul_le_mul_left _ hn
      _ < Nat.pow 2 64 * 1000 := Nat.mul_lt_mul_of_pos_right (ofToml_fits h).2 (by decide)
  · intro m n d e hbase
    exact ReconnectPolicy.nanos_lt_of_retry (Nat.mul_pos hbase (by decide))

/-- Three attempts, the third of which waits three times as long as the first. -/
theorem ofToml_reconnect_three :
    ∃ s, ofToml "[channel]\nmax_reconnect_attempts = 3\nreconnect_base_delay_ms = 100" = .ok s ∧
      s.channel = ⟨none, 3, 100⟩ ∧ s.reconnectPolicy.retry 1 = .after (.ofMillis 100) ∧
      s.reconnectPolicy.retry 3 = .after (.ofMillis 300) ∧
      (Span.ofMillis 100).nanos < (Span.ofMillis 300).nanos ∧
      s.reconnectPolicy.retry 4 = .never := by
  have haccepted :
      (ofToml "[channel]\nmax_reconnect_attempts = 3\nreconnect_base_delay_ms = 100").toOption.map
        channel = some ⟨none, 3, 100⟩ := by decide +kernel
  obtain ⟨s, hs, hchannel⟩ := exists_ok_of_map haccepted
  obtain ⟨hnever, hmade, _, _, hless⟩ := ofToml_reconnect hs
  rw [hchannel] at hnever hmade hless
  have hfirst : s.reconnectPolicy.retry 1 = .after (.ofMillis 100) :=
    (hmade 1 (by decide) (by decide)).trans (if_pos (by decide))
  have hthird : s.reconnectPolicy.retry 3 = .after (.ofMillis 300) :=
    (hmade 3 (by decide) (by decide)).trans (if_pos (by decide))
  exact ⟨s, hs, hchannel, hfirst, hthird, hless 1 3 _ _ (by decide) (by decide) hfirst hthird,
    (hnever 4).2 (by decide)⟩

/-- The longest base delay of a file and more than two thousand attempts are accepted, but the last
    attempt has no answer. -/
theorem ofToml_reconnect_late :
    ∃ s, ofToml ("[channel]\nmax_reconnect_attempts = 2001\n" ++
        "reconnect_base_delay_ms = 9223372036854775807") = .ok s ∧
      s.channel = ⟨none, 2001, 9223372036854775807⟩ ∧ s.reconnectPolicy.retry 2001 = .beyond := by
  have haccepted :
      (ofToml ("[channel]\nmax_reconnect_attempts = 2001\n" ++
        "reconnect_base_delay_ms = 9223372036854775807")).toOption.map channel =
          some ⟨none, 2001, 9223372036854775807⟩ := by decide +kernel
  obtain ⟨s, hs, hchannel⟩ := exists_ok_of_map haccepted
  refine ⟨s, hs, hchannel, ?_⟩
  unfold reconnectPolicy
  rw [hchannel, ReconnectPolicy.retry_ofMillis (by decide) (by decide), if_neg (by decide)]

end Settings

end Storyboard

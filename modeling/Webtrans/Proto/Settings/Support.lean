import Webtrans.Proto.Settings.Negotiation

namespace Webtrans.Proto.Settings

open Webtrans.Data Setting

/-! The three support predicates side by side. -/

/-- The settings of the current draft announce WebTransport. -/
def Announced (settings : Settings) : Prop :=
  settings.getInner wtEnabled = some 1 ∧ settings.getInner enableDatagram = some 1

/-- The older settings offer at least one session. -/
def OffersSessions (settings : Settings) : Prop :=
  (settings.getInner enableDatagram).or (settings.getInner enableDatagramDeprecated) = some 1 ∧
  match settings.getInner webtransportMaxSessions with
  | some max => 0 < max
  | none => settings.getInner webtransportEnableDeprecated = some 1 ∧
      settings.getInner webtransportMaxSessionsDeprecated ≠ some 0

variable {settings : Settings}

theorem supportsWebtransport_announced (announced : settings.Announced) :
    settings.supportsWebtransport = 1 := by
  rw [supportsWebtransport]
  exact if_pos announced

theorem getD_one_pos {sessions : Option Nat} : 0 < sessions.getD 1 ↔ sessions ≠ some 0 := by
  cases sessions with
  | none => simp
  | some max =>
      rw [Option.getD_some, ne_eq, Option.some.injEq]
      exact Nat.pos_iff_ne_zero

/-- Without the current announcement the older settings decide. -/
theorem supportsWebtransport_older (silent : ¬ settings.Announced) :
    0 < settings.supportsWebtransport ↔ settings.OffersSessions := by
  have datagram : ((settings.lookup enableDatagram).or (settings.lookup enableDatagramDeprecated)).map
      VarInt.intoInner = (settings.getInner enableDatagram).or (settings.getInner enableDatagramDeprecated) :=
    Option.map_or
  rw [Announced] at silent
  rw [supportsWebtransport, if_neg silent, OffersSessions]
  dsimp only
  rw [datagram]
  by_cases enabled : (settings.getInner enableDatagram).or (settings.getInner enableDatagramDeprecated) = some 1
  · rw [if_neg (not_not_intro enabled), and_iff_right enabled]
    cases sessions : settings.lookup webtransportMaxSessions with
    | some max => simp only [getInner, sessions, Option.map_some]
    | none =>
        have none : settings.getInner webtransportMaxSessions = none := by rw [getInner, sessions]; rfl
        rw [none]
        by_cases legacy : settings.getInner webtransportEnableDeprecated = some 1
        · simp only [legacy, ne_eq, not_true_eq_false, if_false, true_and]
          exact getD_one_pos
        · simp [legacy]
  · rw [if_pos enabled]
    simp [enabled]

theorem supportsWebtransportClient_iff :
    settings.supportsWebtransportClient = true ↔
      settings.Announced ∨ 0 < settings.supportsWebtransport ∧ settings.lookup wtEnabled = none := by
  simp only [supportsWebtransportClient, Announced, Bool.or_eq_true, Bool.and_eq_true, beq_iff_eq,
    decide_eq_true_eq, Option.isNone_iff_eq_none, gt_iff_lt]

theorem supportsWebtransportServer_client (server : settings.supportsWebtransportServer = true) :
    settings.supportsWebtransportClient = true := by
  rw [supportsWebtransportClient_iff]
  simp only [supportsWebtransportServer, Bool.or_eq_true, Bool.and_eq_true, beq_iff_eq,
    decide_eq_true_eq, Option.isNone_iff_eq_none, gt_iff_lt] at server
  rcases server with ⟨⟨enabled, _⟩, datagram⟩ | older
  · exact .inl ⟨enabled, datagram⟩
  · exact .inr older

theorem supportsWebtransport_client (client : settings.supportsWebtransportClient = true) :
    0 < settings.supportsWebtransport := by
  rcases supportsWebtransportClient_iff.mp client with announced | ⟨sessions, _⟩
  · rw [supportsWebtransport_announced announced]
    exact Nat.one_pos
  · exact sessions

/-- The predicates give one verdict exactly where the current enable flag is
absent, announces WebTransport with its datagram flag, or has no older offer of
sessions beside it. -/
theorem supports_agree_iff (settings : Settings) :
    ((settings.supportsWebtransportClient = true ↔ 0 < settings.supportsWebtransport) ∧
      (settings.supportsWebtransportServer = true →
        settings.supportsWebtransportClient = true ∧ 0 < settings.supportsWebtransport)) ↔
    (settings.lookup wtEnabled = none ∨ settings.Announced ∨ ¬ settings.OffersSessions) := by
  have server : settings.supportsWebtransportServer = true →
      settings.supportsWebtransportClient = true ∧ 0 < settings.supportsWebtransport := by
    intro server
    have client := supportsWebtransportServer_client server
    exact ⟨client, supportsWebtransport_client client⟩
  rw [and_iff_left server]
  constructor
  · intro agree
    by_contra otherwise
    simp only [not_or, not_not] at otherwise
    obtain ⟨present, silent, offers⟩ := otherwise
    have sessions := (supportsWebtransport_older silent).mpr offers
    rcases supportsWebtransportClient_iff.mp (agree.mpr sessions) with announced | ⟨_, absent⟩
    · exact silent announced
    · exact present absent
  · intro condition
    refine ⟨supportsWebtransport_client, fun sessions => supportsWebtransportClient_iff.mpr ?_⟩
    by_cases announced : settings.Announced
    · exact .inl announced
    · have offers := (supportsWebtransport_older announced).mp sessions
      rcases condition with absent | announced | refuses
      · exact .inr ⟨sessions, absent⟩
      · exact .inl announced
      · exact absurd offers refuses

/-- SETTINGS with the current enable flag at 0, datagrams on, and one session
in the setting of the draft before. -/
def optOut : List UInt8 :=
  [0x00, 0x04, 0x10, 0xac, 0x7c, 0xf0, 0x00, 0x00, 0x33, 0x01,
    0xc0, 0x00, 0x00, 0x00, 0xc6, 0x71, 0x70, 0x6a, 0x01]

theorem supports_differ_optOut :
    ∃ settings, decode optOut = .ok (settings, []) ∧
      ¬ (settings.supportsWebtransportClient = true ↔ 0 < settings.supportsWebtransport) := by
  have verdicts : (decode optOut).map (fun found =>
      (found.2, found.1.supportsWebtransportClient, found.1.supportsWebtransport)) = .ok ([], false, 1) := by
    decide +kernel
  cases decoded : decode optOut with
  | error error =>
      rw [decoded] at verdicts
      cases verdicts
  | ok found =>
      obtain ⟨settings, rest⟩ := found
      rw [decoded] at verdicts
      obtain ⟨rfl, both⟩ := Prod.mk.inj (Except.ok.inj verdicts)
      obtain ⟨client, sessions⟩ := Prod.mk.inj both
      exact ⟨settings, rfl, by simp only at client sessions; simp [client, sessions]⟩

end Webtrans.Proto.Settings

import Pickpoint.Core.WsUrl
import Pickpoint.Interleave.Tally
import Pickpoint.Theory.Server

/-!
# Dialing

Where a dial connects to, and as whom.

A session may be sent to another endpoint, and its credentials may be refreshed, while
dials, timers and readers of old sockets go on. `Latest` keeps the endpoint that was named
last and the credential that was given last: by `connect`, or by a refresh that brought
one. A dial reads the configuration in its first section, so what matters is what the
configuration says at any moment; and that is always the latest (`reach_presents`).
Exactly one credential is presented, and only over the two schemes of sockets, the secure
one for endpoints that name a secure one.

## Main definitions

* `Credential`, `Latest`: What is kept.
* `noteLatest`: How.
* `AtLatest`: The configuration has the latest.
* `Presents`: What an address says.

## Theorems

* `buildWsUrl_ok`: An address is made of these.
* `run_latest`: A section keeps to the latest.
* `reach_presents`: Of the latest, in every run.
-/

namespace Pickpoint

namespace Tracking

open Interleave

inductive Credential where
  | device (d : DeviceAuth)
  | listener (l : ListenerAuth)
  deriving DecidableEq

/-- The pairs of an address that present it. -/
def Credential.pairs : Credential → List (String × String)
  | .device d => [("client-id", d.clientId), ("client-secret", d.clientSecret)]
  | .listener l => [("access-token", l.accessToken)]

/-- The endpoint named last and the credential given last; `connect` wants one. -/
structure Latest where
  endpoint : String
  credential : Option Credential
  deriving DecidableEq

/-- What `connect` is given. Of two credentials it takes the device's. -/
def Latest.given (cfg : Config) : Latest where
  endpoint := cfg.endpoint
  credential :=
    match cfg.device, cfg.listener with
    | some d, _ => some (.device d)
    | none, some l => some (.listener l)
    | none, none => none

def Section.noteLatest (b : Latest) : {α : Type} → Section α → Latest
  | _, .relocateEndpoint endpoint => if endpoint = "" then b else { b with endpoint := endpoint }
  | _, .authRefreshed _ (some l) => { b with credential := some (.listener l) }
  | _, .authRefreshed (some d) none => { b with credential := some (.device d) }
  | _, _ => b

/-- Keep the latest of a run. -/
def noteLatest (_ : Pool Shared Task) (_ : Nat) (_ : Task) (a : Act Section Task)
    (b : Latest) : Latest :=
  a.op.noteLatest b

/-- The configuration has the latest. -/
def AtLatest (cfg : Config) (b : Latest) : Prop := Latest.given cfg = b ∧ b.credential.isSome = true

/-- What an address says: it is the endpoint with the scheme of a socket and with the
    pairs of one credential. -/
structure Presents (lib : UrlCrate) (b : Latest) (url : WsUrl) : Prop where
  scheme : url.scheme = "ws" ∨ url.scheme = "wss"
  endpoint : ∃ u c, lib.parse (rawEndpoint b.endpoint) = .ok u ∧ b.credential = some c ∧
    url.authority = u.authority ∧ url.pairs = u.pairs ++ c.pairs ∧
    (url.scheme = "wss" ↔ u.scheme = "https" ∨ u.scheme = "wss")

/-! ## Addresses -/

theorem credentialPairs_given (cfg : Config) (c : Credential)
    (h : (Latest.given cfg).credential = some c) :
    credentialPairs cfg.device cfg.listener = c.pairs := by
  unfold Latest.given at h
  unfold credentialPairs
  rcases hd : cfg.device with _ | d <;> rcases hl : cfg.listener with _ | l
  · simp only [hd, hl, reduceCtorEq] at h
  all_goals
    simp only [hd, hl, Option.some.injEq] at h
    rw [← h]
    rfl

/-- An address is made of what the configuration says. -/
theorem buildWsUrl_ok (lib : UrlCrate) (wsPath : String) (cfg : Config) (b : Latest) (url : WsUrl)
    (hlatest : AtLatest cfg b) (h : buildWsUrl lib wsPath cfg = .ok url) : Presents lib b url := by
  rcases hlatest with ⟨hgiven, hsome⟩
  rcases Option.isSome_iff_exists.mp hsome with ⟨c, hc⟩
  have hpairs := credentialPairs_given cfg c (hgiven ▸ hc)
  have hendpoint : cfg.endpoint = b.endpoint := congrArg Latest.endpoint hgiven
  unfold buildWsUrl at h
  by_cases hempty : trim cfg.endpoint = ""
  · rw [if_pos hempty] at h
    cases h
  rw [if_neg hempty, hendpoint] at h
  rcases hparse : lib.parse (rawEndpoint b.endpoint) with e | u
  · rw [hparse] at h
    cases h
  simp only [hparse] at h
  -- One of the four schemes, or no address.
  by_cases hhttp : u.scheme = "http"
  · simp only [wsScheme, if_pos hhttp] at h
    cases h
    exact ⟨Or.inl rfl, u, c, hparse, hc, rfl, by rw [hpairs], by simp [hhttp]⟩
  by_cases hhttps : u.scheme = "https"
  · simp only [wsScheme, if_neg hhttp, if_pos hhttps] at h
    cases h
    exact ⟨Or.inr rfl, u, c, hparse, hc, rfl, by rw [hpairs], by simp [hhttps]⟩
  by_cases hws : u.scheme = "ws" ∨ u.scheme = "wss"
  · simp only [wsScheme, if_neg hhttp, if_neg hhttps, if_pos hws] at h
    cases h
    exact ⟨hws, u, c, hparse, hc, rfl, by rw [hpairs], by simp [hhttps]⟩
  · simp only [wsScheme, if_neg hhttp, if_neg hhttps, if_neg hws] at h
    cases h

/-! ## Sections -/

section Client

variable (geo : Geo)

/-- A section keeps the configuration at the latest. -/
theorem run_latest {α : Type} (op : Section α) (s : Shared) (b : Latest)
    (h : AtLatest s.inner.cfg b) : AtLatest (op.run geo s).1.inner.cfg (op.noteLatest b) := by
  have hsame : op.noteLatest b = b → (op.run geo s).1.inner.cfg = s.inner.cfg →
      AtLatest (op.run geo s).1.inner.cfg (op.noteLatest b) := by
    intro hnote hcfg
    rw [hnote, hcfg]
    exact h
  by_cases hset : op.setsUp = false
  · refine hsame ?_ (congrArg Settings.cfg (run_settings geo op s hset))
    cases op <;> first | rfl | cases hset
  cases op with
  | relocateEndpoint endpoint =>
      simp only [Section.run, relocateEndpoint_eq, Section.noteLatest]
      rcases h with ⟨hgiven, hsome⟩
      by_cases hempty : endpoint = ""
      · simp only [if_pos hempty]
        exact ⟨hgiven, hsome⟩
      · simp only [if_neg hempty]
        exact ⟨by rw [← hgiven]; rfl, hsome⟩
  | authRefreshed device listener =>
      rcases h with ⟨hgiven, hsome⟩
      -- What a refresh brings takes the place of device and listener both.
      rcases device with _ | d <;> rcases listener with _ | l <;>
        simp only [Section.run, authRefreshed, Shared.hangUp_frame, Section.noteLatest]
      · exact ⟨hgiven, hsome⟩
      all_goals exact ⟨by rw [← hgiven]; rfl, rfl⟩
  | dialInstall gen =>
      refine hsame rfl ?_
      rcases dialInstall_cases gen s with ⟨_, hrun⟩ | ⟨_, _, hrun⟩ <;>
        simp only [Section.run, hrun]
  | socketClosed gen random =>
      refine hsame rfl ?_
      rcases socketClosed_cases gen random s with ⟨_, hrun⟩ | ⟨_, _, _, _, _, _, _, _, hrun, _⟩ <;>
        simp only [Section.run, hrun]
  | publishWork now wall point =>
      refine hsame rfl ?_
      rcases publishWork_cases geo now wall point s with
        hrun | ⟨_, _, hrun | ⟨_, ⟨_, hrun⟩ | ⟨_, hrun⟩⟩⟩ <;>
        simp only [Section.run, hrun, publishLive]
  | _ => first | exact absurd rfl hset | exact hsame rfl rfl

/-- A session starts with the options and a credential of `connect`. -/
theorem started_latest (cfg : Config) (p : Pool Shared Task) (h : Started cfg p) :
    AtLatest p.shared.inner.cfg (Latest.given cfg) := by
  rcases h with ⟨now, h⟩
  unfold connect at h
  by_cases hendpoint : cfg.endpoint = ""
  · rw [if_pos hendpoint] at h
    cases h
  rw [if_neg hendpoint] at h
  by_cases hnone : cfg.device.isNone ∧ cfg.listener.isNone
  · rw [if_pos hnone] at h
    cases h
  rw [if_neg hnone] at h
  cases h
  refine ⟨rfl, ?_⟩
  unfold Latest.given
  rcases hd : cfg.device with _ | d <;> rcases hl : cfg.listener with _ | l
  · exact absurd ⟨by rw [hd]; rfl, by rw [hl]; rfl⟩ hnone
  all_goals rfl

/-- In every run a dial presents the credential given last, and no other, at the
    endpoint named last. `Relocate` and a refreshed session write them under the
    lock, and a dial reads both in one section. -/
theorem reach_presents (cfg : Config) (lib : UrlCrate) (wsPath : String) (p : Pool Shared Task)
    (b : Latest)
    (h : (client geo).Tallied (Started cfg) (fun _ _ _ _ _ => True) noteLatest
      (Latest.given cfg) p b) (url : WsUrl)
    (hurl : buildWsUrl lib wsPath p.shared.inner.cfg = .ok url) : Presents lib b url := by
  have hlatest : AtLatest p.shared.inner.cfg b := by
    refine (client geo).tallied_inv (Started cfg) (fun _ _ _ _ _ => True) noteLatest
      (Latest.given cfg) (fun _ => True) (fun _ _ => trivial)
      (fun p b => AtLatest p.shared.inner.cfg b) ?_ ?_ ?_ p b h
    · exact fun p hp => started_latest cfg p hp
    · exact fun p i c t a b _ _ _ _ hI => run_latest geo a.op p.shared b hI
    · exact fun p t b _ _ hI => hI
  exact buildWsUrl_ok lib wsPath p.shared.inner.cfg b url hlatest hurl

end Client

/-- The addresses of two servers. -/
def twoServers : UrlCrate where
  parse raw :=
    if raw = "wss://a" then .ok ⟨"wss", "a", "/", []⟩
    else if raw = "https://b?v=2" then .ok ⟨"https", "b", "/", [("v", "2")]⟩
    else .error "relative URL without a base"
  setPath path := path

/-- The server sends the session to another one. -/
def relocated : List (Label Task Input) :=
  opening ++ [.resume 2 (.frame (.relocate "https://b?v=2" 0)), .resume 3 .go]

theorem reach_presents_relocated :
    ∃ url : WsUrl, url.path = "/v2/ws" ∧
      Presents twoServers ⟨"https://b?v=2", some (.device ⟨"id", "secret"⟩)⟩ url := by
  rcases (client flatGeo).exists_tallied (Started someConfig) (fun _ _ _ _ _ => True) noteLatest
    (Latest.given someConfig) (fun _ _ _ _ _ => true) (fun _ _ _ _ _ _ => trivial) relocated
    fresh started_fresh
    (fun p b => decide (b = ⟨"https://b?v=2", some (.device ⟨"id", "secret"⟩)⟩ ∧
      buildWsUrl twoServers "" p.shared.inner.cfg = .ok ⟨"wss", "b", "/v2/ws",
        [("v", "2"), ("client-id", "id"), ("client-secret", "secret")]⟩))
    (by decide +kernel) with ⟨p, b, hp, hrun⟩
  rcases of_decide_eq_true hrun with ⟨rfl, hurl⟩
  exact ⟨_, rfl, reach_presents flatGeo someConfig twoServers "" p _ hp _ hurl⟩

end Tracking

end Pickpoint

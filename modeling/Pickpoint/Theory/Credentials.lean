import Pickpoint.Theory.Addressing

/-!
# Credentials

Whose requests a client sends, and how token pairs are asked for.

A configuration has room for three kinds of credentials, and a client is built from
exactly one of them, a complete one (`resolveAuth_iff`). The three shortcuts that
fill in one credential give a client of that kind (`resolveAuth_with`).

Token pairs are minted with an API key and refreshed without any credential in the
headers: the refresh token in the body stands for itself. Both requests go to the
server the configuration names, and a server reads them as they were meant
(`mint_received`, `refresh_received`).

## Theorems

* `resolveAuth_iff`: What a client can be built from.
* `resolveAuth_with`: The shortcuts.
* `mint_ok_iff`: When a pair is minted.
* `mint_received`, `refresh_received`: What a server reads.
-/

namespace Pickpoint

namespace Http

open Auth

/-! ## Configurations -/

theorem given_iff (s : Option String) : given s = true ↔ ∃ t, s = some t ∧ t ≠ "" := by
  rcases s with _ | t
  · exact ⟨by rintro ⟨⟩, by rintro ⟨_, h, _⟩; cases h⟩
  · simp [given]

/-- A client can be built just when there is one credential, and a pair is complete. -/
theorem resolveAuth_iff (cfg : Config) (now : Instant) :
    (∃ r, resolveAuth cfg now = .ok r) ↔
      credentials cfg = 1 ∧
        ∀ auth, cfg.clientAuth = some auth → ∃ session, newSession auth now = .ok session := by
  unfold resolveAuth
  -- More than one credential, none, a key, a pair, or a token.
  by_cases hmany : 1 < credentials cfg
  · rw [if_pos hmany]
    refine ⟨?_, fun h => absurd h.1 (by omega)⟩
    rintro ⟨_, ⟨⟩⟩
  rw [if_neg hmany]
  by_cases hnone : credentials cfg = 0
  · rw [if_pos hnone]
    refine ⟨?_, fun h => absurd h.1 (by omega)⟩
    rintro ⟨_, ⟨⟩⟩
  rw [if_neg hnone]
  have hone : credentials cfg = 1 := by omega
  by_cases hkey : given cfg.apiKey = true
  · -- A key leaves no room for a pair.
    rw [if_pos hkey]
    refine ⟨fun _ => ⟨hone, fun auth hauth => ?_⟩, fun _ => ⟨_, rfl⟩⟩
    unfold credentials at hone
    rw [if_pos hkey, hauth, Option.isSome_some, if_pos rfl] at hone
    omega
  · rw [if_neg hkey]
    rcases hpair : cfg.clientAuth with _ | auth
    · exact ⟨fun _ => ⟨hone, fun _ h => by cases h⟩, fun _ => ⟨_, rfl⟩⟩
    · dsimp only
      -- A pair is checked when the session is made from it.
      rcases hsession : newSession auth now with e | session
      · refine ⟨by rintro ⟨_, ⟨⟩⟩, fun h => ?_⟩
        rcases h.2 auth rfl with ⟨session, hs⟩
        cases hsession.symm.trans hs
      · refine ⟨fun _ => ⟨hone, fun auth' h => ?_⟩, fun _ => ⟨_, rfl⟩⟩
        cases h
        exact ⟨session, hsession⟩

/-- The shortcuts give a client of their kind. -/
theorem resolveAuth_with (now : Instant) :
    (∀ apiKey ≠ "", resolveAuth (.withApiKey apiKey) now = .ok (.apiKey apiKey, none)) ∧
      (∀ token ≠ "", resolveAuth (.withAccessToken token) now = .ok (.staticToken token, none)) ∧
      ∀ auth, resolveAuth (.withClientAuth auth) now =
        (newSession auth now).map fun session => (.clientAuth, some session) := by
  refine ⟨fun apiKey h => ?_, fun token h => ?_, fun auth => ?_⟩
  · simp [resolveAuth, credentials, given, Config.withApiKey, h]
  · simp [resolveAuth, credentials, given, Config.withAccessToken, h]
  · have hone : credentials (.withClientAuth auth) = 1 := rfl
    unfold resolveAuth
    rw [if_neg (by rw [hone]; decide), if_neg (by rw [hone]; decide), if_neg (by rintro ⟨⟩)]
    dsimp only [Config.withClientAuth]
    cases newSession auth now <;> rfl

/-! ## Token pairs -/

variable {V R : Type}

/-- A pair is minted just when there is a key, and the one request made with it is
    answered with a pair. -/
theorem mint_ok_iff (parse : Bytes → Except String R) (cfg : Config) (scopes : List String)
    (ttlSec : Option Int) (send : HttpRequest V → Except String (Nat × Bytes)) (pair : R) :
    mintClientTokens parse cfg scopes ttlSec send = .ok pair ↔
      ∃ apiKey, cfg.apiKey = some apiKey ∧ apiKey ≠ "" ∧
        ∃ status raw, send (mintRequest cfg apiKey scopes ttlSec) = .ok (status, raw) ∧
          (200 ≤ status ∧ status < 300) ∧ parse raw = .ok pair := by
  unfold mintClientTokens
  -- Without a key that is not empty, nothing is sent.
  rcases hfilter : cfg.apiKey.filter (fun s => s ≠ "") with _ | apiKey
  · refine ⟨by rintro ⟨⟩, ?_⟩
    rintro ⟨apiKey, hkey, hne, _⟩
    rw [hkey, Option.filter_some, if_pos (decide_eq_true hne)] at hfilter
    cases hfilter
  rcases Option.filter_eq_some_iff.mp hfilter with ⟨hkey, hgiven⟩
  have hne := of_decide_eq_true hgiven
  dsimp only
  -- A request that is not answered mints nothing.
  rcases hsend : send (mintRequest cfg apiKey scopes ttlSec) with e | ⟨status, raw⟩
  · refine ⟨by rintro ⟨⟩, ?_⟩
    rintro ⟨apiKey', hkey', _, status, raw, hanswer, _⟩
    cases hkey.symm.trans hkey'
    cases hsend.symm.trans hanswer
  dsimp only
  -- An answer counts when it is a 2xx with a pair in it.
  by_cases hok : 200 ≤ status ∧ status < 300
  · rw [if_pos hok]
    constructor
    · intro h
      refine ⟨apiKey, hkey, hne, status, raw, hsend, hok, ?_⟩
      rcases hparse : parse raw with e | v
      · simp only [answered, hparse, reduceCtorEq] at h
      · simp only [answered, hparse, Except.ok.injEq] at h
        rw [h]
    · rintro ⟨apiKey', hkey', _, status', raw', hanswer, _, hparse⟩
      cases hkey.symm.trans hkey'
      cases hsend.symm.trans hanswer
      simp only [answered, hparse]
  · rw [if_neg hok]
    refine ⟨by rintro ⟨⟩, ?_⟩
    rintro ⟨apiKey', hkey', _, status', raw', hanswer, hok', _⟩
    cases hkey.symm.trans hkey'
    cases hsend.symm.trans hanswer
    exact absurd hok' hok

/-- A path of plain names is written as it is and read back. -/
theorem tokens_received (origin : String) (mount path : List String) (r : HttpRequest V)
    (hmount : ∀ m ∈ mount, m ≠ "." ∧ m ≠ "..") (hpath : ∀ m ∈ path, m ≠ "." ∧ m ≠ "..")
    (hurl : r.url.toList = origin.toList ++ (pathOf mount ++ pathOf path)) :
    received origin r =
      some ⟨r.method, (mount ++ path).map utf8, [], credential r.headers, r.body⟩ := by
  have hwritten : r.url.toList =
      origin.toList ++ Percent.writeTarget ((mount ++ path).map utf8) [] := by
    have hempty : Percent.serialize [] = [] := rfl
    rw [hurl, ← pathOf_append, Percent.writeTarget, if_pos hempty, List.append_nil, pathOf]
  have hsteady : ∀ part ∈ (mount ++ path).map utf8, Percent.dotted part = false := by
    intro part hpart
    rcases List.mem_map.mp hpart with ⟨name, hname, rfl⟩
    have hplain : name ≠ "." ∧ name ≠ ".." := by
      rcases List.mem_append.mp hname with hname | hname
      · exact hmount name hname
      · exact hpath name hname
    exact Bool.eq_false_iff.mpr fun hdots => not_or.mpr hplain ((dotted_iff name).mp hdots)
  rw [received_written origin r _ _ hwritten, (Percent.readTarget_writeTarget _ []).mpr hsteady]
  rfl

/-- The path token pairs come from. -/
def tokensPath : List String := ["v2", "client-tokens"]

/-- A server that mints reads the key, the scopes and the lifetime that was asked for. -/
theorem mint_received (cfg : Config) (apiKey : String) (scopes : List String)
    (ttlSec : Option Int) (origin : String) (mount : List String)
    (hbase : (trimSlash (cfg.baseUrl.getD defaultBaseUrl)).toList = origin.toList ++ pathOf mount)
    (hmount : ∀ m ∈ mount, m ≠ "." ∧ m ≠ "..") :
    received origin (mintRequest cfg apiKey scopes ttlSec : HttpRequest V) =
      some
        { method := .post
          parts := (mount ++ tokensPath).map utf8
          pairs := []
          credential := some (.key apiKey)
          body := some (.object (("scopes", .strs scopes) ::
            ((ttlSec.filter fun t => 0 < t).map fun t => ("ttlSec", Field.int t)).toList)) } := by
  have hpath : "/v2/client-tokens".toList = pathOf tokensPath := by decide +kernel
  refine tokens_received origin mount tokensPath _ hmount (by decide) ?_
  show (trimSlash (cfg.baseUrl.getD defaultBaseUrl) ++ "/v2/client-tokens").toList = _
  rw [String.toList_append, hbase, hpath, List.append_assoc]

/-- A server that refreshes reads the refresh token in the body, and no credential. -/
theorem refresh_received (c : Client) (refreshToken : String) (origin : String)
    (mount : List String) (hbase : c.baseUrl.toList = origin.toList ++ pathOf mount)
    (hmount : ∀ m ∈ mount, m ≠ "." ∧ m ≠ "..") :
    received origin (refreshRequest c refreshToken : HttpRequest V) =
      some
        { method := .post
          parts := (mount ++ (tokensPath ++ ["refresh"])).map utf8
          pairs := []
          credential := none
          body := some (.object [("refreshToken", .str refreshToken)]) } := by
  have hpath : "/v2/client-tokens/refresh".toList = pathOf (tokensPath ++ ["refresh"]) := by
    decide +kernel
  refine tokens_received origin mount (tokensPath ++ ["refresh"]) _ hmount (by decide) ?_
  show (c.baseUrl ++ "/v2/client-tokens/refresh").toList = _
  rw [String.toList_append, hbase, hpath, List.append_assoc]

end Http

end Pickpoint

import Pickpoint.Theory.ServerCodec

/-!
# Cut Frames and Cut Fields

What is lost when a frame is cut short on its way, and when the encoder cuts a
field that is too long.

A frame that lacks bytes at its end is never taken for another message: every
decoder reads exactly what its encoder wrote, so it runs out of bytes
(`truncated_refused`).

A text or byte field of more than `MAX_STRING` bytes is cut by the encoder at
that byte. Of a byte field that leaves the first `MAX_STRING` bytes. The cut of a
text may fall inside a character, and what is left is then no text:
`CutsCleanly` says when it does not, and `clamped_decodes` that the frame decodes
just then.

## Main definitions

* `ClientCmd.Fits`, `ServerEvt.Fits`: Messages of which nothing is cut.
* `ClientCmd.bare`, `ServerEvt.bare`: The fields that are not texts or bytes.
* `Clamped`, `ClientCmd.ClampsTo`, `ServerEvt.ClampsTo`: What cutting leaves.

## Theorems

* `truncated_refused`: No part of a frame decodes.
* `refuses_str`: A text that is cut inside a character is refused.
* `clamped_decodes`: When the frame of a message decodes.
* `euros_undecodable`: Not always.
-/

namespace Pickpoint

namespace Tracking

open ByteCodec

/-! ## Cut frames -/

/-- A command that can be written without cutting its texts and bytes. -/
structure ClientCmd.Fits (c : ClientCmd) : Prop where
  writable : c.Writable
  texts : ∀ s ∈ c.texts, (strBytes s).length ≤ 4096
  blobs : ∀ b ∈ c.blobs, b.length ≤ 4096

/-- An event that can be written without cutting its texts and bytes. -/
structure ServerEvt.Fits (e : ServerEvt) : Prop where
  writable : e.Writable
  texts : ∀ s ∈ e.texts, (strBytes s).length ≤ 4096
  blobs : ∀ b ∈ e.blobs, b.length ≤ 4096

/-- A message of which bytes are missing at the end is truncated, wherever it is
    cut. The decoders look at bytes one after the other, so what is shorter is
    missed at the first byte that is not there. -/
theorem truncated_refused (lib : UuidLib) :
    (∀ c : ClientCmd, c.Fits → ∀ w part, encodeClientCmd lib c = .ok w → part <+: w → part ≠ w →
      decodeClient lib part = .error .truncated) ∧
    ∀ e : ServerEvt, e.Fits → ∀ w part, encodeServerEvt lib e = .ok w → part <+: w → part ≠ w →
      decodeServerEvt lib part = .error .truncated := by
  constructor
  · intro c h w part hw hpart hne
    -- A command that is encoded has numbers for its points.
    have hnum : c.Numbered := by
      by_contra hlack
      cases hw.symm.trans (encode_unnumbered lib c h.writable hlack)
    rcases consumes_clientCmd lib c h.writable hnum (fun s hs => Or.inl (h.texts s hs)) with
      ⟨w', hw', hdecodes⟩
    cases hw.symm.trans hw'
    rw [decodeClient_eq]
    exact run_short _ w _ hdecodes part hpart hne
  · intro e h w part hw hpart hne
    rcases consumes_serverEvt lib e h.writable (fun s hs => Or.inl (h.texts s hs)) with
      ⟨w', hw', hdecodes⟩
    cases hw.symm.trans hw'
    rw [decodeServerEvt_eq]
    exact run_short _ w _ hdecodes part hpart hne

/-- A command without its number, and an event in the middle of a text. -/
theorem truncated_refused_relocate :
    decodeClient canonicalLib [6] = .error .truncated ∧
      decodeServerEvt canonicalLib [0x81, 0, 0, 0, 0, 2, 0, 97] = .error .truncated := by
  rcases truncated_refused canonicalLib with ⟨hcmd, hevt⟩
  have hsub : (ClientCmd.unsubscribe 7).Fits :=
    ⟨trivial, fun s hs => absurd hs List.not_mem_nil, fun b hb => absurd hb List.not_mem_nil⟩
  have hrelocate : (ServerEvt.relocate "ab" 0).Fits := by
    have hretry : (0 : Nat) < 2 ^ 32 := by decide
    refine ⟨hretry, fun s hs => ?_, fun b hb => absurd hb List.not_mem_nil⟩
    rw [List.mem_singleton.mp hs]
    decide
  exact ⟨hcmd _ hsub [6, 7] [6] rfl ⟨[7], rfl⟩ (by decide),
    hevt _ hrelocate [0x81, 0, 0, 0, 0, 2, 0, 97, 98] _ (by decide) ⟨[98], rfl⟩ (by decide)⟩

/-! ## Cut fields -/

/-- A command without its texts and bytes. -/
def ClientCmd.bare : ClientCmd → ClientCmd
  | .trackStart location route _ => .trackStart location route []
  | .event trackUid _ timestampMs => .event trackUid [] timestampMs
  | .commandAck commandId status _ => .commandAck commandId status none
  | c => c

/-- An event without its texts and bytes. -/
def ServerEvt.bare : ServerEvt → ServerEvt
  | .relocate _ retryAfterMs => .relocate "" retryAfterMs
  | .trackStarted trackUid _ => .trackStarted trackUid []
  | .subscribed sub deviceUid trackUid lastLocation route estimatedDistance estimatedDuration _ _ _
      online lastSeenMs =>
    .subscribed sub deviceUid trackUid lastLocation route estimatedDistance estimatedDuration "" ""
      [] online lastSeenMs
  | .error code _ trackUid retryAfterMs => .error code "" trackUid retryAfterMs
  | .eventAdded deviceUid trackUid _ timestampMs sub =>
    .eventAdded deviceUid trackUid [] timestampMs sub
  | .command commandId _ timestampMs => .command commandId [] timestampMs
  | e => e

/-- A text of at most `MAX_STRING` bytes that another one begins with. -/
structure Clamped (s s' : String) : Prop where
  start : strBytes s' <+: strBytes s
  short : (strBytes s').length ≤ 4096

/-- A command with its texts and bytes cut, and nothing else changed. -/
structure ClientCmd.ClampsTo (c c' : ClientCmd) : Prop where
  rest : c'.bare = c.bare
  texts : List.Forall₂ Clamped c.texts c'.texts
  blobs : c'.blobs = c.blobs.map fun b => b.take 4096

/-- An event with its texts and bytes cut, and nothing else changed. -/
structure ServerEvt.ClampsTo (e e' : ServerEvt) : Prop where
  rest : e'.bare = e.bare
  texts : List.Forall₂ Clamped e.texts e'.texts
  blobs : e'.blobs = e.blobs.map fun b => b.take 4096

theorem clamped_written (s : String) (h : CutsCleanly s) : Clamped s (writtenStr s) := by
  constructor
  · rw [strBytes_written s h]
    exact List.take_prefix _ _
  · rw [strBytes_written s h]
    exact List.length_take_le _ _

/-- The texts of a message, each as it comes back. -/
theorem clamped_texts (texts : List String) (h : ∀ s ∈ texts, CutsCleanly s) :
    List.Forall₂ Clamped texts (texts.map writtenStr) := by
  rw [List.forall₂_map_right_iff]
  exact List.forall₂_same.mpr fun s hs => clamped_written s (h s hs)

/-- A text that is cut inside a character is refused. -/
theorem refuses_str (s : String) (h : ¬ CutsCleanly s) :
    Refuses DecodeError.invalid R.str (putStr s) := by
  rcases take_maxString (strBytes s) with ⟨hlt, hle⟩
  rw [putStr, putBytes_eq]
  refine refuses_right _ _ _ _ _ (consumes_u16 _ hlt).reads ?_
  rw [if_neg hle]
  refine refuses_last _ _ _ _
    (consumes_take DecodeError.truncated _ ⟨(strBytes s).take maxString, rfl⟩).reads ?_
  have hnone : String.fromUTF8? ⟨((strBytes s).take maxString).toArray⟩ = none :=
    dif_neg fun hvalid => h ((cutBytes_valid s).mp hvalid)
  dsimp only
  rw [hnone]
  exact fun _ => rfl

section Lib

variable (lib : UuidLib)

/-! ### Commands -/

theorem locCmd_bare (seq : Nat) (ps : List LatLng) :
    (locCmd seq ps).bare = locCmd seq ps ∧ (locCmd seq ps).texts = [] ∧
      (locCmd seq ps).blobs = [] := by
  rcases ps with _ | ⟨p, _ | ⟨q, ps⟩⟩ <;> exact ⟨rfl, rfl, rfl⟩

/-- What comes back of a command has its other fields as they come back without the
    texts and bytes. -/
theorem decoded_bare (c : ClientCmd) :
    (c.decoded lib).bare = c.bare.decoded lib ∧ (c.decoded lib).texts = c.texts.map writtenStr ∧
      (c.decoded lib).blobs = c.blobs.map fun b => b.take 4096 := by
  have hempty : writtenStr "" = "" := writtenStr_short "" (Nat.zero_le _)
  cases c with
  | locationBatch trackUid clientSeq points => exact locCmd_bare _ _
  | commandAck commandId status message =>
      refine ⟨?_, ?_, rfl⟩
      · simp only [ClientCmd.decoded, ClientCmd.bare, Option.getD_none, hempty, if_true]
      · simp only [ClientCmd.decoded, ClientCmd.texts, List.map_cons, List.map_nil]
        by_cases hm : writtenStr (message.getD "") = ""
        · rw [if_pos hm, hm]
          rfl
        · rw [if_neg hm]
          rfl
  | _ => exact ⟨rfl, rfl, rfl⟩

theorem bare_writable (c : ClientCmd) :
    (c.bare.Writable ↔ c.Writable) ∧ (c.bare.Numbered ↔ c.Numbered) := by
  cases c <;> exact ⟨Iff.rfl, Iff.rfl⟩

/-- The frame of a command with a text that is cut inside a character. -/
theorem refuses_clientCmd (c : ClientCmd) (s : String) (hs : s ∈ c.texts) (h : ¬ CutsCleanly s) :
    ∃ w, encodeClientCmd lib c = .ok w ∧ Refuses DecodeError.invalid (clientFrame lib) w := by
  cases c with
  | commandAck commandId status message =>
      have hm : s = message.getD "" := List.mem_singleton.mp hs
      rw [hm] at h
      refine ⟨_, rfl, refuses_right _ _ _ _ _ (consumes_u8 cCommandAck).reads ?_⟩
      refine refuses_right _ _ _ _ _ (consumes_uuid lib commandId).reads ?_
      refine refuses_right _ _ _ _ _ (consumes_u8 status.toU8).reads ?_
      exact refuses_first _ _ _ (refuses_str _ h)
  | _ => exact absurd hs List.not_mem_nil

/-- A command whose other fields are in the domain of the wire comes back cut when
    its texts are cut between characters, and else not at all. -/
theorem clientCmd_clamped (hlib : lib.Documented) (c : ClientCmd) (h : c.bare.OnWire) :
    (∃ w c', encodeClientCmd lib c = .ok w ∧ decodeClientCmd lib w = .ok c' ∧ c.ClampsTo c') ↔
      ∀ s ∈ c.texts, CutsCleanly s := by
  constructor
  · rintro ⟨w, c', hw, hdecode, _⟩ s hs
    by_contra hcut
    rcases refuses_clientCmd lib c s hs hcut with ⟨w', hw', hrefuses⟩
    cases hw.symm.trans hw'
    rw [decodeClientCmd, decodeClient_eq, refuses_run _ _ hrefuses] at hdecode
    cases hdecode
  · intro htexts
    rcases onWire_writable c.bare h with ⟨hwritable, hnum, _⟩
    rcases bare_writable c with ⟨hsame, hsame'⟩
    rcases consumes_clientCmd lib c (hsame.mp hwritable) (hsame'.mp hnum) htexts with
      ⟨w, hw, hdecodes⟩
    rcases decoded_bare lib c with ⟨hbare, htexts', hblobs⟩
    refine ⟨w, c.decoded lib, hw, decodeClientCmd_frame lib w _ hdecodes, ?_, ?_, hblobs⟩
    · rw [hbare, decoded_onWire lib hlib c.bare h]
    · rw [htexts']
      exact clamped_texts c.texts htexts

/-! ### Events -/

theorem evtDecoded_bare (e : ServerEvt) :
    (e.decoded lib).bare = e.bare.decoded lib ∧ (e.decoded lib).texts = e.texts.map writtenStr ∧
      (e.decoded lib).blobs = e.blobs.map fun b => b.take 4096 := by
  have hempty : writtenStr "" = "" := writtenStr_short "" (Nat.zero_le _)
  cases e with
  | relocate endpoint retryAfterMs =>
      refine ⟨?_, rfl, rfl⟩
      simp only [ServerEvt.decoded, ServerEvt.bare, hempty]
  | subscribed sub deviceUid trackUid lastLocation route distance duration startName endName
      metadata online lastSeenMs =>
      refine ⟨?_, rfl, rfl⟩
      simp only [ServerEvt.decoded, ServerEvt.bare, hempty, List.take_nil]
  | error code message trackUid retryAfterMs =>
      refine ⟨?_, rfl, rfl⟩
      simp only [ServerEvt.decoded, ServerEvt.bare, hempty]
  | _ => exact ⟨rfl, rfl, rfl⟩

theorem evtBare_writable (e : ServerEvt) : e.bare.Writable ↔ e.Writable := by
  cases e <;> exact Iff.rfl

/-- The first name of a `Subscribed` is refused, or the second one is. -/
theorem refuses_names (evt : String → String → Bytes → ServerEvt)
    (startLocationName endLocationName : String) (metadata : Bytes)
    (h : ¬ (CutsCleanly startLocationName ∧ CutsCleanly endLocationName)) :
    Refuses DecodeError.invalid (readNames evt)
      (putStr startLocationName ++ (putStr endLocationName ++ putBytes metadata)) := by
  by_cases hstart : CutsCleanly startLocationName
  · have hend : ¬ CutsCleanly endLocationName := fun hend => h ⟨hstart, hend⟩
    refine refuses_right _ _ _ _ _ (consumes_str startLocationName hstart).reads ?_
    exact refuses_left _ _ _ _ (refuses_str endLocationName hend)
  · exact refuses_left _ _ _ _ (refuses_str startLocationName hstart)

/-- The frame of an event with a text that is cut inside a character. -/
theorem refuses_serverEvt (e : ServerEvt) (hwritable : e.Writable)
    (h : ¬ ∀ s ∈ e.texts, CutsCleanly s) :
    ∃ w, encodeServerEvt lib e = .ok w ∧ Refuses DecodeError.invalid (serverFrame lib) w := by
  -- An event with a single text is refused for that text.
  have hone : ∀ m, (¬ ∀ s ∈ [m], CutsCleanly s) → ¬ CutsCleanly m := by
    intro m hm hcut
    exact hm fun s hs => List.mem_singleton.mp hs ▸ hcut
  cases e with
  -- Three events hold a text.
  | relocate endpoint retryAfterMs =>
      refine ⟨_, rfl, refuses_right _ _ _ _ _ (consumes_u8 sRelocate).reads ?_⟩
      refine refuses_right _ _ _ _ _ (consumes_u32 retryAfterMs hwritable).reads ?_
      exact refuses_first _ _ _ (refuses_str endpoint (hone endpoint h))
  | subscribed sub deviceUid trackUid lastLocation route distance duration startName endName
      metadata online lastSeenMs =>
      refine ⟨_, encode_subscribed lib sub deviceUid trackUid lastLocation route distance duration
        startName endName metadata online lastSeenMs,
        refuses_right _ _ _ _ _ (consumes_u8 sSubscribed).reads ?_⟩
      rcases hwritable with ⟨hloc, hroute, htime⟩
      refine refuses_leads _ _ _ _ (leads_subscribed lib sub deviceUid trackUid lastLocation route
        distance duration online lastSeenMs hloc hroute htime)
        (refuses_names _ startName endName metadata ?_)
      rintro ⟨hstart, hend⟩
      exact h (List.forall_mem_cons.mpr ⟨hstart, List.forall_mem_singleton.mpr hend⟩)
  | error code message trackUid retryAfterMs =>
      refine ⟨_, rfl, refuses_right _ _ _ _ _ (consumes_u8 sError).reads ?_⟩
      refine refuses_right _ _ _ _ _ (consumes_u8 code.toU8).reads ?_
      rw [errorCode_fromU8]
      refine refuses_right _ _ _ _ _
        (consumes_u32 _ (getD_u32 retryAfterMs hwritable)).reads ?_
      refine refuses_right _ _ _ _ _ (consumes_uuidOpt lib (trackUid.getD "")).reads ?_
      exact refuses_first _ _ _ (refuses_str message (hone message h))
  -- The others have none that could be cut.
  | _ => exact absurd (fun s hs => absurd hs List.not_mem_nil) h

theorem serverEvt_clamped (hlib : lib.Documented) (e : ServerEvt) (h : e.bare.OnWire) :
    (∃ w e', encodeServerEvt lib e = .ok w ∧ decodeServerEvt lib w = .ok (some e') ∧
      e.ClampsTo e') ↔ ∀ s ∈ e.texts, CutsCleanly s := by
  have hwritable : e.Writable := (evtBare_writable e).mp (evtOnWire_writable e.bare h).1
  constructor
  · rintro ⟨w, e', hw, hdecode, _⟩
    by_contra hcut
    rcases refuses_serverEvt lib e hwritable hcut with ⟨w', hw', hrefuses⟩
    cases hw.symm.trans hw'
    rw [decodeServerEvt_eq, refuses_run _ _ hrefuses] at hdecode
    cases hdecode
  · intro htexts
    rcases consumes_serverEvt lib e hwritable htexts with ⟨w, hw, hdecodes⟩
    rcases evtDecoded_bare lib e with ⟨hbare, htexts', hblobs⟩
    refine ⟨w, e.decoded lib, hw, decodeServerEvt_frame lib w _ hdecodes, ?_, ?_, hblobs⟩
    · rw [hbare, evtDecoded_onWire lib hlib e.bare h]
    · rw [htexts']
      exact clamped_texts e.texts htexts

/-- A message with texts and bytes of any length, its other fields being in the
    domain of the wire, decodes to itself with those cut just when no text is cut
    inside a character. -/
theorem clamped_decodes (hlib : lib.Documented) :
    (∀ c : ClientCmd, c.bare.OnWire →
      ((∃ w c', encodeClientCmd lib c = .ok w ∧ decodeClientCmd lib w = .ok c' ∧ c.ClampsTo c') ↔
        ∀ s ∈ c.texts, CutsCleanly s)) ∧
    ∀ e : ServerEvt, e.bare.OnWire →
      ((∃ w e', encodeServerEvt lib e = .ok w ∧ decodeServerEvt lib w = .ok (some e') ∧
        e.ClampsTo e') ↔ ∀ s ∈ e.texts, CutsCleanly s) :=
  ⟨clientCmd_clamped lib hlib, serverEvt_clamped lib hlib⟩

end Lib

/-- A redirect to an address of two bytes, and bytes of which one is cut off. -/
theorem clamped_decodes_relocate :
    (∃ w c', encodeClientCmd canonicalLib (.event "" (List.replicate 4097 0) none) = .ok w ∧
      decodeClientCmd canonicalLib w = .ok c' ∧
      (ClientCmd.event "" (List.replicate 4097 0) none).ClampsTo c') ∧
    ∃ w e', encodeServerEvt canonicalLib (.relocate "ab" 0) = .ok w ∧
      decodeServerEvt canonicalLib w = .ok (some e') ∧
      (ServerEvt.relocate "ab" 0).ClampsTo e' := by
  rcases clamped_decodes canonicalLib canonicalLib_documented with ⟨hcmd, hevt⟩
  have hevent : (ClientCmd.event "" (List.replicate 4097 0) none).bare.OnWire :=
    ⟨rfl, Nat.zero_le _, by decide, fun t ht => absurd ht (Option.not_mem_none t)⟩
  have hretry : (0 : Nat) < 2 ^ 32 := by decide
  have hrelocate : (ServerEvt.relocate "ab" 0).bare.OnWire := ⟨Nat.zero_le _, hretry⟩
  refine ⟨(hcmd _ hevent).mpr fun s hs => absurd hs List.not_mem_nil,
    (hevt _ hrelocate).mpr fun s hs => Or.inl ?_⟩
  rw [List.mem_singleton.mp hs]
  decide

/-- A text of one character repeated. -/
def repeated (c : Char) (n : Nat) : String := String.ofList (List.replicate n c)

theorem repeated_length (c : Char) (n : Nat) :
    (strBytes (repeated c n)).length = c.utf8Size * n := by
  rw [strBytes, repeated, String.toByteArray_ofList]
  induction n with
  | zero => rfl
  | succ n ih =>
      have hone : [c].utf8Encode.data.toList.length = c.utf8Size := by
        rw [List.utf8Encode_singleton, List.toList_data_toByteArray, String.length_utf8EncodeChar]
      rw [List.replicate_succ, List.utf8Encode_cons, ByteArray.data_append, Array.toList_append,
        List.length_append, ih, hone, Nat.mul_succ, Nat.add_comm]

/-- Such a text that is too long is cut cleanly only when the cut is at a multiple of
    the length of the character. -/
theorem repeated_cut (c : Char) (n : Nat) (hlong : maxString < c.utf8Size * n)
    (h : CutsCleanly (repeated c n)) : c.utf8Size ∣ maxString := by
  rcases h with hle | hvalid
  · rw [repeated_length] at hle
    exact absurd hle (Nat.not_le.mpr hlong)
  · rcases String.Pos.Raw.isValid_ofList.mp hvalid with ⟨i, hi⟩
    rw [List.take_replicate] at hi
    exact ⟨min i n, hi.trans (repeated_length c (min i n))⟩

/-- Not every command comes back: byte `MAX_STRING` of this message is inside a
    character. -/
theorem euros_undecodable :
    ¬ ∀ c : ClientCmd, c.bare.OnWire → ∃ w c', encodeClientCmd canonicalLib c = .ok w ∧
      decodeClientCmd canonicalLib w = .ok c' ∧ c.ClampsTo c' := by
  intro h
  have hnil : (ClientCmd.commandAck (Uuid.hyphenated Uuid.nil) .ok
      (some (repeated '€' 1366))).bare.OnWire :=
    ⟨⟨Uuid.nil, rfl⟩, by decide, fun m hm => absurd hm (Option.not_mem_none m)⟩
  have hclean := (clientCmd_clamped canonicalLib canonicalLib_documented _ hnil).mp (h _ hnil)
  -- 1366 characters of three bytes are more than 4096 bytes, which is no multiple of three.
  have hdvd := repeated_cut '€' 1366 (by decide) (hclean _ List.mem_cons_self)
  exact absurd hdvd (by decide)

end Tracking

end Pickpoint

import Mathlib.Algebra.BigOperators.Group.List.Basic
import Mathlib.Algebra.Order.BigOperators.Group.List
import Vncdotool.Capture.Session
import Vncdotool.RFB.Blocks

/-!
# Credentials — how long the answer to Apple's authentication is

`_encryptArd` pads the user name and the password by the character, encrypts what they are encoded
to, and appends its public value.  The scrubber of a capture takes the 128 octets that two padded
ASCII strings of at most 64 characters have.  AES and the Diffie-Hellman exchange are taken as
documented: whole blocks are encrypted to as many octets, and partial ones are refused.
-/

namespace Vncdotool

open Wire Streaming

/-! ## The length of an encoded text -/

theorem length_toListLoop (bytes : ByteArray) (i : ℕ) (r : List UInt8) :
    (ByteArray.toList.loop bytes i r).length = r.length + (bytes.size - i) := by
  induction i, r using ByteArray.toList.loop.induct bytes with
  | case1 i r hlt ih =>
      rw [ByteArray.toList.loop, if_pos hlt, ih, List.length_cons]
      omega
  | case2 i r hge =>
      rw [ByteArray.toList.loop, if_neg hge, List.length_reverse]
      omega

theorem length_toUTF8 (text : List Char) :
    (String.ofList text).toUTF8.toList.length = (text.map Char.utf8Size).sum := by
  have hsize : text.utf8Encode.size = (text.map Char.utf8Size).sum := by
    induction text with
    | nil => rfl
    | cons c text ih =>
        rw [List.utf8Encode_cons, ByteArray.size_append, ih, List.utf8Encode_singleton,
          List.map_cons, List.sum_cons, List.size_toByteArray, String.length_utf8EncodeChar]
  rw [ByteArray.toList, length_toListLoop, String.toUTF8_eq_toByteArray, String.toByteArray_ofList,
    hsize]
  exact Nat.zero_add _

/-- Text of ASCII characters, no more of them than are padded to. -/
def FitsField (text : String) : Prop :=
  text.toList.length ≤ 64 ∧ ∀ c ∈ text.toList, c.toNat < 128

instance (text : String) : Decidable (FitsField text) :=
  inferInstanceAs (Decidable (_ ∧ _))

/-- Every character takes an octet, and one of ASCII no more. -/
theorem sum_utf8Size (text : List Char) :
    text.length ≤ (text.map Char.utf8Size).sum ∧
      ((text.map Char.utf8Size).sum = text.length ↔ ∀ c ∈ text, c.toNat < 128) := by
  induction text with
  | nil => simp
  | cons c text ih =>
      have hpos := c.utf8Size_pos
      have hone : c.utf8Size = 1 ↔ c.toNat < 128 := by
        rw [Char.utf8Size_eq_one_iff, UInt32.le_iff_toNat_le]
        exact Nat.lt_succ_iff.symm
      rw [List.map_cons, List.sum_cons, List.length_cons, List.forall_mem_cons, ← hone, ← ih.2]
      rcases ih with ⟨hle, -⟩
      omega

theorem sum_padNul (text : List Char) :
    ((padNul 64 text).map Char.utf8Size).sum =
      (text.map Char.utf8Size).sum + (64 - text.length) := by
  have hnul : (Char.ofNat 0).utf8Size = 1 := by decide
  rw [padNul, List.map_append, List.sum_append, List.map_replicate, hnul, List.sum_replicate_nat,
    mul_one]

/-- A padded text takes 64 octets at least, and no more if it fits. -/
theorem sum_padNul_fits (text : String) :
    64 ≤ ((padNul 64 text.toList).map Char.utf8Size).sum ∧
      (((padNul 64 text.toList).map Char.utf8Size).sum = 64 ↔ FitsField text) := by
  rcases sum_utf8Size text.toList with ⟨hle, hascii⟩
  rw [sum_padNul, FitsField, ← hascii]
  omega

namespace RFBClient

variable {σ : Type}

/-- The user name that is sent. -/
def ardUsername (env : Env) (c : RFBClient σ) : String :=
  c.factory.username.getD env.typedUsername

def ardPassword (env : Env) (c : RFBClient σ) : String :=
  c.factory.password.getD env.typedPassword

theorem length_ardCredentials_iff (env : Env) (c : RFBClient σ) :
    (c.ardCredentials env).length = ardCredentialsLen ↔
      FitsField (c.ardUsername env) ∧ FitsField (c.ardPassword env) := by
  rcases sum_padNul_fits (c.ardUsername env) with ⟨husername, husernameFits⟩
  rcases sum_padNul_fits (c.ardPassword env) with ⟨hpassword, hpasswordFits⟩
  rw [ardCredentials, length_toUTF8, List.map_append, List.sum_append, ← husernameFits,
    ← hpasswordFits, ardCredentialsLen]
  rw [ardUsername] at *
  rw [ardPassword] at *
  omega

end RFBClient

/-! ## The reply -/

/-- What is documented of the digest and the cipher. -/
structure Env.Enciphers (env : Env) : Prop where
  digest : ∀ data, (env.md5 data).length = 16
  blocks : ∀ key data, key.length = 16 → 16 ∣ data.length →
    ∃ ciphertext, env.aesECB key data = .ok ciphertext ∧ ciphertext.length = data.length
  rejects : ∀ key data, key.length = 16 → ¬ 16 ∣ data.length →
    ∃ exc, env.aesECB key data = .error exc

/-- The steps at which a scrubber takes the credentials and the public value take this message. -/
def TakesReply (keyLen : ℕ) (message : Bytes) : Prop :=
  ∀ (scrubber : HandshakeScrubber) (negotiated : Ver),
    scrubber.gen = some (.ardCredentials negotiated keyLen) →
    ∃ credentials clientKey recorded recorded' final,
      Follows HandshakeScrubber.grammar scrubber
        [⟨.c2s, credentials, recorded⟩, ⟨.c2s, clientKey, recorded'⟩] final ∧
      credentials ++ clientKey = message ∧ final.gen = some (.securityResult negotiated)

section Takes

variable {scrubber : HandshakeScrubber} {negotiated : Ver} {keyLen : ℕ}

theorem send_ardCredentials (h : scrubber.gen = some (.ardCredentials negotiated keyLen))
    (chunk : Bytes) : (scrubber.send chunk).gen = some (.ardClientKey negotiated keyLen) := by
  rw [HandshakeScrubber.send, h]
  rfl

/-- Behind the public value a SecurityResult follows, as there was an exchange. -/
theorem send_ardClientKey (h : scrubber.gen = some (.ardClientKey negotiated keyLen))
    (chunk : Bytes) : (scrubber.send chunk).gen = some (.securityResult negotiated) := by
  have hexchange : ¬ (negotiated < ⟨3, 8⟩ ∧ AuthTypes.DIFFIE_HELLMAN = AuthTypes.NONE) := by
    rintro ⟨-, hsame⟩
    exact absurd hsame (by decide)
  rw [HandshakeScrubber.send, h]
  dsimp only
  rw [HandshakeScrubber.resume, HandshakeScrubber.endAuth, if_pos hexchange]
  rfl

theorem want_of_gen {suspension : Suspension} (h : scrubber.gen = some suspension) :
    HandshakeScrubber.grammar.want scrubber = some suspension.want :=
  congrArg (Option.map Suspension.want) h

theorem advance_eq (scrubber : HandshakeScrubber) (chunk : Bytes) :
    HandshakeScrubber.grammar.advance scrubber chunk =
      ((scrubber.advance chunk).1, scrubber.send chunk) :=
  Prod.ext rfl (HandshakeScrubber.advance_snd scrubber chunk)

end Takes

theorem takesReply_iff (keyLen : ℕ) (message : Bytes) :
    TakesReply keyLen message ↔ message.length = ardCredentialsLen + keyLen := by
  constructor
  · intro h
    -- Any scrubber that stands there does.
    rcases h { gen := some (.ardCredentials ⟨3, 8⟩ keyLen) } ⟨3, 8⟩ rfl with
      ⟨credentials, clientKey, recorded, recorded', final, hfollows, hmessage, -⟩
    cases hfollows with
    | cons hwant hadvance hrest =>
        cases hrest with
        | cons hwant' hadvance' hnil =>
            rw [want_of_gen rfl] at hwant
            rw [advance_eq] at hadvance
            have hsent := (Prod.ext_iff.1 hadvance).2
            dsimp only at hsent
            rw [← hsent, want_of_gen (send_ardCredentials rfl _)] at hwant'
            have hcredentials : ardCredentialsLen = credentials.length :=
              congrArg Prod.snd (Option.some.inj hwant)
            have hclientKey : keyLen = clientKey.length :=
              congrArg Prod.snd (Option.some.inj hwant')
            rw [← hmessage, List.length_append, ← hcredentials, ← hclientKey]
  · intro hlength scrubber negotiated hgen
    have htake : (message.take ardCredentialsLen).length = ardCredentialsLen := by
      rw [List.length_take, hlength]
      exact min_eq_left (Nat.le_add_right _ _)
    have hdrop : (message.drop ardCredentialsLen).length = keyLen := by
      rw [List.length_drop, hlength]
      exact Nat.add_sub_cancel_left _ _
    have hgen' := send_ardCredentials hgen (message.take ardCredentialsLen)
    refine ⟨message.take ardCredentialsLen, message.drop ardCredentialsLen, _, _, _,
      Follows.cons ?_ (advance_eq scrubber (message.take ardCredentialsLen))
        (Follows.cons ?_ (advance_eq (scrubber.send _) (message.drop ardCredentialsLen))
          (Follows.nil _)),
      List.take_append_drop _ _, send_ardClientKey hgen' _⟩
    · rw [want_of_gen hgen, htake]
      rfl
    · rw [want_of_gen hgen', hdrop]
      rfl

namespace RFBClient

variable {σ : Type} {rt : Runtime σ} {c : RFBClient σ} {block sharedKey : Bytes} {y : ℕ}

/-- One message was written, which the scrubber's steps take. -/
def Replied (c c' : RFBClient σ) : Prop :=
  ∃ message, c'.log = c.log ++ [.write message] ∧
    message.length = ardCredentialsLen + c.keyLen ∧ TakesReply c.keyLen message

/-- An authentication failure or a protocol error was reported. -/
def Refused (c c' : RFBClient σ) : Prop :=
  ∃ event ∈ c'.log.drop c.log.length, event.isReport = true

/-- The server key is answered or the credentials are refused, and nothing raises. -/
def AnswersOrRefuses (rt : Runtime σ) (c : RFBClient σ) (block : Bytes) : Prop :=
  Ensures (handleDHAuthCert rt block) c (fun _ c' => c.Replied c' ∨ c.Refused c') fun _ _ => False

/-- What the client has stored when it comes to encrypting. -/
def withCredentials (env : Env) (c : RFBClient σ) (block : Bytes) : RFBClient σ :=
  { c with
    serverKey := block
    factory := { c.factory with
      username := some (c.ardUsername env)
      password := some (c.ardPassword env) } }

/-- The exchange goes through. -/
theorem exchange_run {c' : RFBClient σ} (hdh : rt.env.dhExchange (unpackBE c.modulus) c.generator
    (unpackBE block) = .ok (sharedKey, y)) :
    (liftExcept (rt.env.dhExchange (unpackBE c.modulus) c.generator (unpackBE block)) :
      Py σ (Bytes × ℕ)) c' = .ok (sharedKey, y) c' := by
  rw [hdh]
  rfl

theorem encryptArd_enciphered {ciphertext : Bytes}
    (hdh : rt.env.dhExchange (unpackBE c.modulus) c.generator (unpackBE block) = .ok (sharedKey, y))
    (hy : y < 256 ^ c.keyLen)
    (haes : rt.env.aesECB (rt.env.md5 sharedKey) (c.ardCredentials rt.env) = .ok ciphertext) :
    handleDHAuthCert rt block c =
      .ok () { c.withCredentials rt.env block with
        log := c.log ++ [.write (ciphertext ++ packBE c.keyLen y)]
        expectedHandler := .vncAuthResult
        expectedLen := 4 } := by
  have hencrypt : (liftExcept (rt.env.aesECB (rt.env.md5 sharedKey) (c.ardCredentials rt.env)) :
      Py σ Bytes) (c.withCredentials rt.env block) =
        .ok ciphertext (c.withCredentials rt.env block) := by
    rw [haes]
    rfl
  have hwritten : rt.encryptArd (c.withCredentials rt.env block) =
      .ok () { c.withCredentials rt.env block with
        log := c.log ++ [.write (ciphertext ++ packBE c.keyLen y)] } := by
    refine (run_bind_ok (exchange_run hdh)).trans ?_
    refine (run_bind_ok hencrypt).trans ?_
    change (if 256 ^ c.keyLen ≤ y then _ else _ : Py σ PUnit) _ = _
    rw [if_neg (not_le.2 hy)]
    rfl
  exact run_bind_ok hwritten

theorem encryptArd_rejected {exc : PyError}
    (hdh : rt.env.dhExchange (unpackBE c.modulus) c.generator (unpackBE block) = .ok (sharedKey, y))
    (haes : rt.env.aesECB (rt.env.md5 sharedKey) (c.ardCredentials rt.env) = .error exc) :
    handleDHAuthCert rt block c = .error exc (c.withCredentials rt.env block) := by
  have hencrypt : (liftExcept (rt.env.aesECB (rt.env.md5 sharedKey) (c.ardCredentials rt.env)) :
      Py σ Bytes) (c.withCredentials rt.env block) =
        .error exc (c.withCredentials rt.env block) := by
    rw [haes]
    rfl
  have hraised : rt.encryptArd (c.withCredentials rt.env block) =
      .error exc (c.withCredentials rt.env block) :=
    (run_bind_ok (exchange_run hdh)).trans (run_bind_error hencrypt)
  exact (run_bind_error hraised : (rt.encryptArd >>= fun _ => expect .vncAuthResult 4) _ = _)

/-- The length of what is encrypted decides. -/
theorem answersOrRefuses_iff_length (henv : rt.env.Enciphers)
    (hdh : rt.env.dhExchange (unpackBE c.modulus) c.generator (unpackBE block) = .ok (sharedKey, y))
    (hy : y < 256 ^ c.keyLen) :
    AnswersOrRefuses rt c block ↔ (c.ardCredentials rt.env).length = ardCredentialsLen := by
  have hkey := henv.digest sharedKey
  by_cases hblocks : 16 ∣ (c.ardCredentials rt.env).length
  · rcases henv.blocks _ _ hkey hblocks with ⟨ciphertext, haes, hlength⟩
    have hwritten := encryptArd_enciphered hdh hy haes
    rw [← hlength]
    refine (ensures_of_run_ok hwritten).trans ?_
    constructor
    · rintro (⟨message, hlog, hreply, -⟩ | ⟨event, hevent, hreport⟩)
      · have hmessage := Event.write.inj (List.singleton_inj.1 (List.append_cancel_left hlog))
        rw [← hmessage, List.length_append, length_packBE] at hreply
        exact Nat.add_right_cancel hreply
      -- What was written reports nothing.
      · rw [List.drop_left, List.mem_singleton] at hevent
        rw [hevent] at hreport
        cases hreport
    · intro hcredentials
      have hreply : (ciphertext ++ packBE c.keyLen y).length = ardCredentialsLen + c.keyLen := by
        rw [List.length_append, length_packBE, hcredentials]
      exact Or.inl ⟨_, rfl, hreply, (takesReply_iff _ _).2 hreply⟩
  · rcases henv.rejects _ _ hkey hblocks with ⟨exc, haes⟩
    refine (ensures_of_run_error (encryptArd_rejected hdh haes)).trans (iff_of_false id ?_)
    intro hcredentials
    rw [hcredentials] at hblocks
    exact hblocks (by decide)

/-- The server is answered with as many octets as the scrubber takes exactly when the user name and
the password are ASCII and short enough; any other credentials are not refused, but raise or make
the message longer. -/
theorem answersOrRefuses_iff_fitsField (henv : rt.env.Enciphers)
    (hdh : rt.env.dhExchange (unpackBE c.modulus) c.generator (unpackBE block) = .ok (sharedKey, y))
    (hy : y < 256 ^ c.keyLen) :
    AnswersOrRefuses rt c block ↔
      FitsField (c.ardUsername rt.env) ∧ FitsField (c.ardPassword rt.env) := by
  rw [answersOrRefuses_iff_length henv hdh hy, length_ardCredentials_iff]

end RFBClient

/-! ## One exchange -/

/-- The prime of the group the server offers. -/
def ardPrime : ℕ :=
  (0xFFFFFFFFFFFFFFFFC90FDAA22168C234C4C6628B80DC1CD129024E088A67CC74 * 2 ^ 256 +
      0x020BBEA63B139B22514A08798E3404DDEF9519B3CD3A431B302B0A6DF25F1437) * 2 ^ 256 +
    0x4FE1356D6D51C245E485B576625E7EC6F44C42E9A63A3620FFFFFFFFFFFFFFFF

def ardServerPublic : ℕ :=
  (0x539db9d0b81bbb0d76ea7e2ed9d7ec127fb8362ab474a1f49f24480ccbac88b5 * 2 ^ 256 +
      0xe2d5004990ba645c9c80e2b932fa4dd4d027f98e4ba386e1e01305b7a07cca28) * 2 ^ 256 +
    0x62e6495f151c6bcbc525d385b40409aa3660abd279e5f4344cd0cd5f225e2350

def ardClientPublic : ℕ :=
  (0x427f9fb6905d7699b91b1d2ffd46a94df3f743b5a1d7f3f6566d16f1e9c8ee47 * 2 ^ 256 +
      0x9aa2482b1c341beb044650af026c8bbef50343cf71e14dabdada49101d13241f) * 2 ^ 256 +
    0xb8f410d26588d82fc135661e671c3bad49169286d75ebf0a5514828421240290

def ardShared : ℕ :=
  (0x2ce10f9ec30bd10bb6da7d886c984ac13759f46627603dc3754bac382de0b785 * 2 ^ 256 +
      0x6d85dab45875afd387d350dbafc7e5566ac7257684a0091482eceacfc62a6c22) * 2 ^ 256 +
    0xdf692366aa48df95dee604252f2a9f63de4cf951869ec057679484e598048404

/-- The digest of the shared secret. -/
def ardDigest : ℕ := 0x2df89e9c793f47c450a4117490494a15

/-- AES under that digest, for the blocks of the credentials below. -/
def ardBlock (key block : Bytes) : Bytes :=
  if key ≠ packBE 16 ardDigest then block
  else if block = [97, 100, 109, 105, 110] ++ List.replicate 11 0 then
    packBE 16 0x9e8e27a54a52465959983368b783268f
  else if block = [115, 101, 99, 114, 101, 116] ++ List.replicate 10 0 then
    packBE 16 0x62fb4b5c89865a2f600858a785d78eec
  else if block = List.replicate 16 0 then packBE 16 0xdb9e0dc247fcdeeb1f808d8afccc63b9
  else if block = List.replicate 16 97 then packBE 16 0x46e1c7fdac0956eeee658b91c14ceac5
  else block

def ardBlocks (key : Bytes) : ℕ → Bytes → Bytes
  | 0, _ => []
  | n + 1, data => ardBlock key (data.take 16) ++ ardBlocks key n (data.drop 16)

/-- The libraries, for one exchange with this server. -/
def ardEnv : Env where
  alloc _ := true
  tripleDES _ data := data
  dhExchange p g serverKey :=
    if p = ardPrime ∧ g = 2 ∧ serverKey = ardServerPublic then
      .ok (packBE 96 ardShared, ardClientPublic)
    else .error .valueError
  md5 data := if data = packBE 96 ardShared then packBE 16 ardDigest else packBE 16 0
  aesECB key data :=
    if 16 ∣ data.length then .ok (ardBlocks key (data.length / 16) data) else .error .valueError
  inflate _ data := .ok data
  typedUsername := ""
  typedPassword := ""

theorem length_ardBlock {key block : Bytes} (h : block.length = 16) :
    (ardBlock key block).length = 16 := by
  unfold ardBlock
  split_ifs
  · exact h
  · rfl
  · rfl
  · rfl
  · rfl
  · exact h

theorem length_ardBlocks (key : Bytes) (n : ℕ) {data : Bytes} (h : data.length = 16 * n) :
    (ardBlocks key n data).length = data.length := by
  induction n generalizing data with
  | zero => exact h.symm
  | succ n ih =>
      have htake : (data.take 16).length = 16 := by
        rw [List.length_take]
        omega
      have hdrop : (data.drop 16).length = 16 * n := by
        rw [List.length_drop]
        omega
      rw [ardBlocks, List.length_append, length_ardBlock htake, ih hdrop, hdrop]
      omega

theorem ardEnv_enciphers : ardEnv.Enciphers where
  digest data := by
    unfold ardEnv
    dsimp only
    split_ifs
    · rfl
    · rfl
  blocks key data _ hblocks := by
    refine ⟨ardBlocks key (data.length / 16) data, if_pos hblocks, ?_⟩
    exact length_ardBlocks key _ (Nat.mul_div_cancel' hblocks).symm
  rejects _ _ _ hpartial := ⟨.valueError, if_neg hpartial⟩

/-- A client that has the server's group, with these credentials. -/
def ardClient (username password : String) : RFBClient Unit :=
  { app := ()
    version := ⟨3, 889⟩
    generator := 2
    keyLen := 96
    modulus := packBE 96 ardPrime
    factory := { username := some username, password := some password } }

def ardRuntime : Runtime Unit where
  env := ardEnv
  override := RFBClient.defaultCallback ardEnv

theorem ardClient_exchange (username password : String) :
    ardRuntime.env.dhExchange (unpackBE (ardClient username password).modulus)
      (ardClient username password).generator (unpackBE (packBE 96 ardServerPublic)) =
        .ok (packBE 96 ardShared, ardClientPublic) := by
  have hprime : unpackBE (packBE 96 ardPrime) = ardPrime :=
    unpackBE_packBE_of_lt (by decide +kernel)
  have hserver : unpackBE (packBE 96 ardServerPublic) = ardServerPublic :=
    unpackBE_packBE_of_lt (by decide +kernel)
  unfold ardRuntime ardEnv ardClient
  dsimp only
  rw [hprime, hserver, if_pos ⟨rfl, rfl, rfl⟩]

theorem answersOrRefuses_iff_fitsField_admin :
    RFBClient.AnswersOrRefuses ardRuntime (ardClient "admin" "secret")
      (packBE 96 ardServerPublic) := by
  have hy : ardClientPublic < 256 ^ 96 := by decide +kernel
  have hiff := @RFBClient.answersOrRefuses_iff_fitsField Unit ardRuntime
    (ardClient "admin" "secret") (packBE 96 ardServerPublic) (packBE 96 ardShared)
    ardClientPublic ardEnv_enciphers (ardClient_exchange "admin" "secret") hy
  have husername : FitsField "admin" := by
    refine ⟨?_, ?_⟩
    · simp
    · simp
  have hpassword : FitsField "secret" := by
    refine ⟨?_, ?_⟩
    · simp
    · simp
  rw [hiff]
  exact ⟨husername, hpassword⟩

/-- A password of 80 characters makes the message longer by 16 octets, an accent raises. -/
theorem not_answersOrRefuses_unfit :
    ¬ RFBClient.AnswersOrRefuses ardRuntime
        (ardClient "admin" (String.ofList (List.replicate 80 (Char.ofNat 97))))
        (packBE 96 ardServerPublic) ∧
      ¬ RFBClient.AnswersOrRefuses ardRuntime
        (ardClient "admin" (String.ofList [Char.ofNat 233])) (packBE 96 ardServerPublic) := by
  have hy (password : String) : ardClientPublic < 256 ^ (ardClient "admin" password).keyLen := by
    change ardClientPublic < 256 ^ 96
    decide +kernel
  have hunfit {password : String} (hpassword : ¬ FitsField password) :
      ¬ RFBClient.AnswersOrRefuses ardRuntime (ardClient "admin" password)
        (packBE 96 ardServerPublic) := by
    rw [RFBClient.answersOrRefuses_iff_length ardEnv_enciphers
      (ardClient_exchange "admin" password) (hy password), RFBClient.length_ardCredentials_iff]
    exact fun hfits => hpassword hfits.2
  constructor
  · refine hunfit fun hfits => ?_
    rw [FitsField, String.toList_ofList, List.length_replicate] at hfits
    exact absurd hfits.1 (by decide)
  · refine hunfit fun hfits => ?_
    rw [FitsField, String.toList_ofList] at hfits
    exact absurd (hfits.2 _ List.mem_cons_self) (by decide)

end Vncdotool

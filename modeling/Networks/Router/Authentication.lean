import Networks.Router.Interfaces
import Networks.Router.Sha1

/-! The router authenticates itself to the server with the hash of a salt and a key. A server
that knows the key accepts the reply, unless the key in the file is too short: then what lies on
the stack is hashed with it.
-/

namespace Networks.Router

open BlockHash TextFields
open Ctcp (htonl fieldBytes32)

-----------------------------------------------------------------------------------------
-- The code
-----------------------------------------------------------------------------------------

/-- What `sr_handle_auth_request` depends on besides its arguments: the text of the file
`auth_key`, its variables before they are set, and how the calls of `malloc` and `send` end.
-/
structure AuthSurroundings where
  authKeyFile : Option (List UInt8)
  authKey : Vector UInt8 65
  sha1 : SHA1Context
  allocates : Bool
  sent : Int

/-- `fgets`, which leaves what is behind the end of the line in `auth_key`. At the end of the
file it reads nothing.
-/
def fgetsAuthKey (authKey : Vector UInt8 65) (text : List UInt8) : Option (List UInt8) :=
  if text = [] then
    none
  else
    let line := (readLine 10 64 text).1
    some (line ++ 0 :: authKey.toList.drop (line.length + 1))

/-- The bytes of `Message_Digest`, with its words in network byte order. -/
def digestBytes (digest : Digest) : List UInt8 :=
  digest.toList.flatMap fun word => fieldBytes32 (htonl word)

/-- The reply that `sr_handle_auth_request` builds. -/
def authReply (username : List UInt8) (digest : Digest) : List UInt8 :=
  fieldBytes32 (htonl (.ofNat (12 + username.length + 20))) ++ fieldBytes32 (htonl 256)
    ++ fieldBytes32 (htonl (.ofNat username.length)) ++ username ++ digestBytes digest

/-- The salt of a message that has both words. -/
def Message.salt (message : Message) : Option (List UInt8) :=
  if 8 ≤ message.len then some (message.bytes.drop 8) else none

/-- `sr_handle_auth_request`: what it returns, and the reply that it hands to `send`. There is
nothing when it reads behind the message, or behind the user name.
-/
def Message.handleAuthRequest (message : Message) (user : Vector UInt8 32)
    (surroundings : AuthSurroundings)
    : Option (Int × Option (List UInt8)) :=
  match surroundings.authKeyFile.bind (fgetsAuthKey surroundings.authKey) with
  | none => some (0, none)
  | some authKey =>
      message.salt.bind fun salt =>
        (surroundings.sha1.sha1Reset.sha1Input salt).bind fun sha1 =>
          (sha1.sha1Input (authKey.take 64)).bind fun sha1 =>
            sha1.sha1Result.bind fun
              | (none, _) => some (0, none)
              | (some digest, _) =>
                  if 0 ∉ user.toList then
                    none
                  else if surroundings.allocates then
                    let reply := authReply (cString user.toList) digest
                    some (if surroundings.sent = reply.length then 1 else 0, some reply)
                  else
                    some (0, none)

-----------------------------------------------------------------------------------------
-- What a server expects
-----------------------------------------------------------------------------------------

/-- A server with a key accepts the reply of a user to a salt. -/
structure Accepts (salt key username reply : List UInt8) : Prop where
  mLen : ntohlAt reply 0 = reply.length
  mType : ntohlAt reply 4 = 256
  usernameLen : ntohlAt reply 8 = username.length
  named : (reply.drop 12).take username.length = username
  digest : reply.drop (12 + username.length) = digestBytes (Sha1.hash (salt ++ key))

/-- The part of the key in a file that gets into the array, with the zero behind it. -/
def keyLine (text : List UInt8) : List UInt8 := (readLine 10 64 text).1 ++ [0]

section Replies

theorem length_digestBytes (digest : Digest) : (digestBytes digest).length = 20 := by
  simp [digestBytes, List.length_flatMap]

theorem length_authReply (username : List UInt8) (digest : Digest)
    : (authReply username digest).length = 12 + username.length + 20 := by
  simp only [authReply, List.length_append, length_fieldBytes32, length_digestBytes]

/-- A server reads the reply as it was built. -/
theorem authReply_accepts {salt key username : List UInt8} (short : username.length < 32)
    : Accepts salt key username (authReply username (Sha1.hash (salt ++ key))) := by
  let digest := digestBytes (Sha1.hash (salt ++ key))
  let mLen := fieldBytes32 (htonl (.ofNat (12 + username.length + 20)))
  let mType := fieldBytes32 (htonl 256)
  let usernameLen := fieldBytes32 (htonl (.ofNat username.length))
  have parts : authReply username (Sha1.hash (salt ++ key))
      = (mLen ++ mType ++ usernameLen) ++ (username ++ digest) := by
    simp only [authReply, List.append_assoc, mLen, mType, usernameLen, digest]
  have front : (mLen ++ mType ++ usernameLen).length = 12 := by
    simp only [mLen, mType, usernameLen, List.length_append, length_fieldBytes32]
  have first : ntohlAt (mLen ++ (mType ++ (usernameLen ++ (username ++ digest)))) 0
      = 12 + username.length + 20 := by
    have field := ntohlAt_field [] (mType ++ (usernameLen ++ (username ++ digest)))
      (.ofNat (12 + username.length + 20))
    rwa [List.nil_append, List.length_nil, UInt32.toNat_ofNat', Nat.mod_eq_of_lt (by omega)]
      at field
  have second : ntohlAt (mLen ++ (mType ++ (usernameLen ++ (username ++ digest)))) 4 = 256 := by
    have field := ntohlAt_field mLen (usernameLen ++ (username ++ digest)) 256
    rwa [length_fieldBytes32] at field
  have third : ntohlAt (mLen ++ mType ++ (usernameLen ++ (username ++ digest))) 8
      = username.length := by
    have field := ntohlAt_field (mLen ++ mType) (username ++ digest) (.ofNat username.length)
    rwa [List.length_append, length_fieldBytes32, length_fieldBytes32, UInt32.toNat_ofNat',
      Nat.mod_eq_of_lt (by omega)] at field
  constructor
  · rw [length_authReply, parts, List.append_assoc, List.append_assoc, first]
  · rw [parts, List.append_assoc, List.append_assoc, second]
  · rw [parts, List.append_assoc, third]
  · rw [parts, List.drop_left' front, List.take_left' rfl]
  · rw [parts, ← List.drop_drop, List.drop_left' front, List.drop_left' rfl]

/-- The bytes of a word tell it. -/
theorem fieldBytes32_htonl_injective {word other : UInt32}
    (same : fieldBytes32 (htonl word) = fieldBytes32 (htonl other))
    : word = other := by
  have first := ntohlAt_field [] [] word
  rw [same] at first
  exact UInt32.toNat_inj.mp (first.symm.trans (ntohlAt_field [] [] other))

/-- The bytes of words tell them, by induction on the words. -/
theorem flatMap_fieldBytes32_injective {words others : List UInt32}
    (same : words.flatMap (fun word => fieldBytes32 (htonl word))
      = others.flatMap fun word => fieldBytes32 (htonl word))
    : words = others := by
  induction words generalizing others with
  | nil =>
      cases others with
      | nil => rfl
      | cons other others => cases same
  | cons word words ih =>
      cases others with
      | nil => cases same
      | cons other others =>
          rw [List.flatMap_cons, List.flatMap_cons] at same
          obtain ⟨heads, tails⟩ := List.append_inj same (by simp only [length_fieldBytes32])
          rw [fieldBytes32_htonl_injective heads, ih tails]

theorem digestBytes_injective {digest other : Digest}
    (same : digestBytes digest = digestBytes other)
    : digest = other :=
  Vector.toList_inj.mp (flatMap_fieldBytes32_injective same)

end Replies

-----------------------------------------------------------------------------------------
-- Replies of the router
-----------------------------------------------------------------------------------------

section Handling

variable {message : Message} {surroundings : AuthSurroundings} {text : List UInt8}
variable {user : Vector UInt8 32}

/-- The bytes that are hashed as the key. -/
def hashedKey (authKey : Vector UInt8 65) (text : List UInt8) : List UInt8 :=
  (keyLine text ++ authKey.toList.drop (keyLine text).length).take 64

/-- The hash is computed from the salt and the key, since both are short. -/
theorem sha1Result_salted (context : SHA1Context) {salt key : List UInt8}
    (short : salt.length + key.length < 2 ^ 61)
    : ∃ first second last,
        context.sha1Reset.sha1Input salt = some first ∧ first.sha1Input key = some second
        ∧ second.sha1Result = some (some (Sha1.hash (salt ++ key)), last) := by
  obtain ⟨first, salted, holds⟩ := sha1Input_holds (sha1Reset_holds context) salt
  rw [Hashing.takePiece, if_pos (by rw [List.length_nil]; omega), List.nil_append] at holds
  obtain ⟨second, keyed, holds⟩ := sha1Input_holds holds key
  rw [Hashing.takePiece, if_pos short] at holds
  obtain ⟨last, result, -⟩ := sha1Result_holds holds
  exact ⟨first, second, last, salted, keyed, result⟩

/-- The reply has the hash of the salt and what is in the array. -/
theorem handleAuthRequest_eq (whole : 8 ≤ message.len)
    (opens : surroundings.authKeyFile = some text) (some : text ≠ [])
    (terminated : 0 ∈ user.toList) (allocates : surroundings.allocates = true)
    : let reply := authReply (cString user.toList)
        (Sha1.hash (message.bytes.drop 8 ++ hashedKey surroundings.authKey text))
      message.handleAuthRequest user surroundings
        = .some (if surroundings.sent = reply.length then 1 else 0, .some reply) := by
  intro reply
  have array : surroundings.authKeyFile.bind (fgetsAuthKey surroundings.authKey)
      = .some (keyLine text ++ surroundings.authKey.toList.drop (keyLine text).length) := by
    rw [opens, Option.bind_some, fgetsAuthKey, if_neg some, keyLine, List.length_append,
      List.append_assoc]
    rfl
  have short : (message.bytes.drop 8).length + (hashedKey surroundings.authKey text).length
      < 2 ^ 61 := by
    have accepted := message.accepted
    rw [List.length_drop, hashedKey, List.length_take]
    omega
  obtain ⟨first, second, last, salted, keyed, result⟩ :=
    sha1Result_salted surroundings.sha1 short
  rw [hashedKey] at keyed
  simp only [Message.handleAuthRequest, array, Message.salt, if_pos whole, Option.bind_some,
    salted, keyed, result, not_not_intro terminated, if_false, allocates, if_true]
  rfl

theorem length_cString (terminated : 0 ∈ user.toList) : (cString user.toList).length < 32 := by
  have below : (cString user.toList).length < user.toList.length := by
    rw [cString]
    refine lt_of_le_of_ne (List.takeWhile_prefix _).length_le fun same => ?_
    have all := List.takeWhile_eq_self_iff.mp ((List.takeWhile_prefix _).eq_of_length same)
    simpa using all 0 terminated
  rwa [Vector.length_toList] at below

end Handling

/-- A key of at least 63 bytes: whatever lies on the stack, a server that knows its first 64
bytes, the zero behind it included, accepts the reply. The user name ends in its array, and
`malloc` returns memory.
-/
theorem handleAuthRequest_accepted {message : Message} (whole : 8 ≤ message.len)
    {surroundings : AuthSurroundings} {text : List UInt8}
    (opens : surroundings.authKeyFile = some text) (long : 64 ≤ (keyLine text).length)
    {user : Vector UInt8 32} (terminated : 0 ∈ user.toList)
    (allocates : surroundings.allocates = true)
    : ∃ reply,
        message.handleAuthRequest user surroundings
          = some (if surroundings.sent = reply.length then 1 else 0, some reply)
        ∧ Accepts (message.bytes.drop 8) ((keyLine text).take 64) (cString user.toList)
            reply := by
  have nonempty : text ≠ [] := by
    rintro rfl
    simp [keyLine, readLine] at long
  have hashed : hashedKey surroundings.authKey text = (keyLine text).take 64 := by
    rw [hashedKey, List.take_append_of_le_length long]
  refine ⟨_, handleAuthRequest_eq whole opens nonempty terminated allocates, ?_⟩
  rw [hashed]
  exact authReply_accepts (length_cString terminated)

/-- The bytes of a request with a salt of four bytes. -/
def requestBytes : List UInt8 := [0, 0, 0, 12, 0, 0, 0, 128, 1, 2, 3, 4]

theorem length_requestBytes : requestBytes.length ≤ 10000 := by decide

/-- The user name `vr`, in its array. -/
def vrUser : Vector UInt8 32 := (Vector.replicate 32 0).set 0 118 |>.set 1 114

/-- Surroundings in which every call succeeds. -/
def authSurroundings (text : List UInt8) : AuthSurroundings where
  authKeyFile := some text
  authKey := .replicate 65 0
  sha1 := ⟨startDigest, 0, 0, .replicate 64 0, 0, false, false⟩
  allocates := true
  sent := 34

/-- A key of seventy bytes. -/
theorem handleAuthRequest_accepted_seventy
    : ∃ reply,
        Message.handleAuthRequest ⟨requestBytes, length_requestBytes⟩ vrUser
            (authSurroundings (.replicate 70 97))
          = some (if (34 : Int) = reply.length then 1 else 0, some reply)
        ∧ Accepts (requestBytes.drop 8) ((keyLine (.replicate 70 97)).take 64)
            (cString vrUser.toList) reply :=
  @handleAuthRequest_accepted ⟨requestBytes, length_requestBytes⟩ (by decide)
    (authSurroundings (.replicate 70 97)) _ rfl (by decide) vrUser (by decide) rfl

/-- A key that fills the array except for some bytes: the stack makes up for them. -/
theorem exists_hashedKey_ne {text : List UInt8} (short : (keyLine text).length < 64)
    (key : List UInt8)
    : ∃ authKey, hashedKey authKey text ≠ key := by
  have filled : ∀ byte : UInt8,
      (hashedKey (.replicate 65 byte) text)[(keyLine text).length]? = some byte := by
    intro byte
    rw [hashedKey, List.getElem?_take_of_lt short, List.getElem?_append_right (Nat.le_refl _),
      Nat.sub_self, List.getElem?_drop, Nat.add_zero, Vector.toList_replicate,
      List.getElem?_replicate_of_lt (by omega)]
  by_cases zeros : hashedKey (.replicate 65 0) text = key
  · refine ⟨.replicate 65 1, fun ones => ?_⟩
    have first := filled 0
    rw [zeros, ← ones, filled 1] at first
    exact absurd (Option.some.inj first) (by decide)
  · exact ⟨_, zeros⟩

/-- A shorter key: whatever key a server has, the stack may make it reject the reply, unless two
inputs of the compression function collide. The user name ends in its array, and `malloc`
returns memory.
-/
theorem handleAuthRequest_unaccepted {message : Message} (whole : 8 ≤ message.len)
    {surroundings : AuthSurroundings} {text : List UInt8}
    (opens : surroundings.authKeyFile = some text) (nonempty : text ≠ [])
    (short : (keyLine text).length < 64) {user : Vector UInt8 32}
    (terminated : 0 ∈ user.toList) (allocates : surroundings.allocates = true)
    {key : List UInt8} (sized : key.length = 64)
    : ∃ authKey reply,
        message.handleAuthRequest user { surroundings with authKey := authKey }
          = some (if surroundings.sent = reply.length then 1 else 0, some reply)
        ∧ (Accepts (message.bytes.drop 8) key (cString user.toList) reply
          → Collides Sha1.compress startDigest
              (blocks 64 (Sha1.pad (message.bytes.drop 8 ++ hashedKey authKey text)))
              (blocks 64 (Sha1.pad (message.bytes.drop 8 ++ key)))) := by
  obtain ⟨authKey, differ⟩ := exists_hashedKey_ne short key
  refine ⟨authKey, _,
    @handleAuthRequest_eq message { surroundings with authKey := authKey } text user whole opens
      nonempty terminated allocates, fun accepts => ?_⟩
  have built := (@authReply_accepts (message.bytes.drop 8) (hashedKey authKey text) _
    (length_cString terminated)).digest
  have same := digestBytes_injective (built.symm.trans accepts.digest)
  have accepted := message.accepted
  refine strengthens_pad.collides ?_ ?_ (fun equal => differ (List.append_cancel_left equal)) same
  · rw [List.length_append, List.length_drop, hashedKey, List.length_take]
    omega
  · rw [List.length_append, List.length_drop, sized]
    omega

/-- A key of one letter, and a server that expects zeros behind it. -/
theorem handleAuthRequest_unaccepted_letter
    : let key : List UInt8 := 97 :: 10 :: .replicate 62 0
      ∃ authKey reply,
        Message.handleAuthRequest ⟨requestBytes, length_requestBytes⟩ vrUser
            { authSurroundings [97, 10] with authKey := authKey }
          = some (if (34 : Int) = reply.length then 1 else 0, some reply)
        ∧ (Accepts (requestBytes.drop 8) key (cString vrUser.toList) reply
          → Collides Sha1.compress startDigest
              (blocks 64 (Sha1.pad (requestBytes.drop 8 ++ hashedKey authKey [97, 10])))
              (blocks 64 (Sha1.pad (requestBytes.drop 8 ++ key)))) :=
  @handleAuthRequest_unaccepted ⟨requestBytes, length_requestBytes⟩ (by decide)
    (authSurroundings [97, 10]) _ rfl (by decide) (by decide) vrUser (by decide) rfl _ rfl

end Networks.Router

import DtlsClient.TLS.CipherSuite

/-!
# `DTLS/CipherSuites`

The table of cipher suites: identifier, key exchange, MAC, PRF, cipher and length of the verify data.
-/

namespace DtlsClient.CipherSuites

def TLS_NULL_WITH_NULL_NULL : CipherSuite :=
  ⟨0x0000, none, none, none, .null, 12⟩
def TLS_RSA_WITH_NULL_MD5 : CipherSuite :=
  ⟨0x0001, some .rsa, some .md5, some .sha256, .null, 12⟩
def TLS_RSA_WITH_NULL_SHA : CipherSuite :=
  ⟨0x0002, some .rsa, some .sha1, some .sha256, .null, 12⟩
def TLS_RSA_WITH_NULL_SHA256 : CipherSuite :=
  ⟨0x003B, some .rsa, some .sha256, some .sha256, .null, 12⟩
def TLS_RSA_WITH_3DES_EDE_CBC_SHA : CipherSuite :=
  ⟨0x000A, some .rsa, some .sha1, some .sha256, .block .desEde3Cbc, 12⟩
def TLS_RSA_WITH_AES_128_CBC_SHA : CipherSuite :=
  ⟨0x002F, some .rsa, some .sha1, some .sha256, .block .aes128cbc, 12⟩
def TLS_RSA_WITH_AES_256_CBC_SHA : CipherSuite :=
  ⟨0x0035, some .rsa, some .sha1, some .sha256, .block .aes256cbc, 12⟩
def TLS_RSA_WITH_AES_128_CBC_SHA256 : CipherSuite :=
  ⟨0x003C, some .rsa, some .sha256, some .sha256, .block .aes128cbc, 12⟩
def TLS_RSA_WITH_AES_256_CBC_SHA256 : CipherSuite :=
  ⟨0x003D, some .rsa, some .sha256, some .sha256, .block .aes256cbc, 12⟩
def TLS_DH_DSS_WITH_3DES_EDE_CBC_SHA : CipherSuite :=
  ⟨0x000D, some .dhDss, some .sha1, some .sha256, .block .desEde3Cbc, 12⟩
def TLS_DH_RSA_WITH_3DES_EDE_CBC_SHA : CipherSuite :=
  ⟨0x0010, some .dhRsa, some .sha1, some .sha256, .block .desEde3Cbc, 12⟩
def TLS_DHE_DSS_WITH_3DES_EDE_CBC_SHA : CipherSuite :=
  ⟨0x0013, some .dheDss, some .sha1, some .sha256, .block .desEde3Cbc, 12⟩
def TLS_DHE_RSA_WITH_3DES_EDE_CBC_SHA : CipherSuite :=
  ⟨0x0016, some .dheRsa, some .sha1, some .sha256, .block .desEde3Cbc, 12⟩
def TLS_DH_DSS_WITH_AES_128_CBC_SHA : CipherSuite :=
  ⟨0x0030, some .dhDss, some .sha1, some .sha256, .block .aes128cbc, 12⟩
def TLS_DH_RSA_WITH_AES_128_CBC_SHA : CipherSuite :=
  ⟨0x0031, some .dhRsa, some .sha1, some .sha256, .block .aes128cbc, 12⟩
def TLS_DHE_DSS_WITH_AES_128_CBC_SHA : CipherSuite :=
  ⟨0x0032, some .dheDss, some .sha1, some .sha256, .block .aes128cbc, 12⟩
def TLS_DHE_RSA_WITH_AES_128_CBC_SHA : CipherSuite :=
  ⟨0x0033, some .dheRsa, some .sha1, some .sha256, .block .aes128cbc, 12⟩
def TLS_DH_DSS_WITH_AES_256_CBC_SHA : CipherSuite :=
  ⟨0x0036, some .dhDss, some .sha1, some .sha256, .block .aes256cbc, 12⟩
def TLS_DH_RSA_WITH_AES_256_CBC_SHA : CipherSuite :=
  ⟨0x0037, some .dhRsa, some .sha1, some .sha256, .block .aes256cbc, 12⟩
def TLS_DHE_DSS_WITH_AES_256_CBC_SHA : CipherSuite :=
  ⟨0x0038, some .dheDss, some .sha1, some .sha256, .block .aes256cbc, 12⟩
def TLS_DHE_RSA_WITH_AES_256_CBC_SHA : CipherSuite :=
  ⟨0x0039, some .dheRsa, some .sha1, some .sha256, .block .aes256cbc, 12⟩
def TLS_DH_DSS_WITH_AES_128_CBC_SHA256 : CipherSuite :=
  ⟨0x003E, some .dhDss, some .sha256, some .sha256, .block .aes128cbc, 12⟩
def TLS_DH_RSA_WITH_AES_128_CBC_SHA256 : CipherSuite :=
  ⟨0x003F, some .dhRsa, some .sha256, some .sha256, .block .aes128cbc, 12⟩
def TLS_DHE_DSS_WITH_AES_128_CBC_SHA256 : CipherSuite :=
  ⟨0x0040, some .dheDss, some .sha256, some .sha256, .block .aes128cbc, 12⟩
def TLS_DHE_RSA_WITH_AES_128_CBC_SHA256 : CipherSuite :=
  ⟨0x0067, some .dheRsa, some .sha256, some .sha256, .block .aes128cbc, 12⟩
def TLS_DH_DSS_WITH_AES_256_CBC_SHA256 : CipherSuite :=
  ⟨0x0068, some .dhDss, some .sha256, some .sha256, .block .aes256cbc, 12⟩
def TLS_DH_RSA_WITH_AES_256_CBC_SHA256 : CipherSuite :=
  ⟨0x0069, some .dhRsa, some .sha256, some .sha256, .block .aes256cbc, 12⟩
def TLS_DHE_DSS_WITH_AES_256_CBC_SHA256 : CipherSuite :=
  ⟨0x006A, some .dheDss, some .sha256, some .sha256, .block .aes256cbc, 12⟩
def TLS_DHE_RSA_WITH_AES_256_CBC_SHA256 : CipherSuite :=
  ⟨0x006B, some .dheRsa, some .sha256, some .sha256, .block .aes256cbc, 12⟩
def TLS_PSK_WITH_3DES_EDE_CBC_SHA : CipherSuite :=
  ⟨0x008B, some .psk, some .sha1, some .sha256, .block .desEde3Cbc, 12⟩
def TLS_PSK_WITH_AES_128_CBC_SHA : CipherSuite :=
  ⟨0x008C, some .psk, some .sha1, some .sha256, .block .aes128cbc, 12⟩
def TLS_PSK_WITH_AES_256_CBC_SHA : CipherSuite :=
  ⟨0x008D, some .psk, some .sha1, some .sha256, .block .aes256cbc, 12⟩
def TLS_DHE_PSK_WITH_3DES_EDE_CBC_SHA : CipherSuite :=
  ⟨0x008F, some .dhePsk, some .sha1, some .sha256, .block .desEde3Cbc, 12⟩
def TLS_DHE_PSK_WITH_AES_128_CBC_SHA : CipherSuite :=
  ⟨0x0090, some .dhePsk, some .sha1, some .sha256, .block .aes128cbc, 12⟩
def TLS_DHE_PSK_WITH_AES_256_CBC_SHA : CipherSuite :=
  ⟨0x0091, some .dhePsk, some .sha1, some .sha256, .block .aes256cbc, 12⟩
def TLS_RSA_PSK_WITH_3DES_EDE_CBC_SHA : CipherSuite :=
  ⟨0x0093, some .rsaPsk, some .sha1, some .sha256, .block .desEde3Cbc, 12⟩
def TLS_RSA_PSK_WITH_AES_128_CBC_SHA : CipherSuite :=
  ⟨0x0094, some .rsaPsk, some .sha1, some .sha256, .block .aes128cbc, 12⟩
def TLS_RSA_PSK_WITH_AES_256_CBC_SHA : CipherSuite :=
  ⟨0x0095, some .rsaPsk, some .sha1, some .sha256, .block .aes256cbc, 12⟩
def TLS_PSK_WITH_AES_128_CBC_SHA256 : CipherSuite :=
  ⟨0x00AE, some .psk, some .sha256, some .sha256, .block .aes128cbc, 12⟩
def TLS_PSK_WITH_AES_256_CBC_SHA384 : CipherSuite :=
  ⟨0x00AF, some .psk, some .sha384, some .sha384, .block .aes256cbc, 12⟩
def TLS_DHE_PSK_WITH_AES_128_CBC_SHA256 : CipherSuite :=
  ⟨0x00B2, some .dhePsk, some .sha256, some .sha256, .block .aes128cbc, 12⟩
def TLS_DHE_PSK_WITH_AES_256_CBC_SHA384 : CipherSuite :=
  ⟨0x00B3, some .dhePsk, some .sha384, some .sha384, .block .aes256cbc, 12⟩
def TLS_RSA_PSK_WITH_AES_128_CBC_SHA256 : CipherSuite :=
  ⟨0x00B6, some .rsaPsk, some .sha256, some .sha256, .block .aes128cbc, 12⟩
def TLS_RSA_PSK_WITH_AES_256_CBC_SHA384 : CipherSuite :=
  ⟨0x00B7, some .rsaPsk, some .sha384, some .sha384, .block .aes256cbc, 12⟩
def TLS_PSK_WITH_AES_128_GCM_SHA256 : CipherSuite :=
  ⟨0x00A8, some .psk, none, some .sha256, .aead .aes128gcm, 12⟩
def TLS_PSK_WITH_AES_256_GCM_SHA384 : CipherSuite :=
  ⟨0x00A9, some .psk, none, some .sha384, .aead .aes256gcm, 12⟩
def TLS_PSK_WITH_AES_128_CCM : CipherSuite :=
  ⟨0xC0A4, some .psk, none, some .sha256, .aead .aes128ccm, 12⟩
def TLS_PSK_WITH_AES_256_CCM : CipherSuite :=
  ⟨0xC0A5, some .psk, none, some .sha256, .aead .aes256ccm, 12⟩
def TLS_DHE_PSK_WITH_AES_128_CCM : CipherSuite :=
  ⟨0xC0A6, some .dhePsk, none, some .sha256, .aead .aes128ccm, 12⟩
def TLS_DHE_PSK_WITH_AES_256_CCM : CipherSuite :=
  ⟨0xC0A7, some .dhePsk, none, some .sha256, .aead .aes256ccm, 12⟩
def TLS_PSK_WITH_AES_128_CCM_8 : CipherSuite :=
  ⟨0xC0A8, some .psk, none, some .sha256, .aead .aes128ccm8, 12⟩
def TLS_PSK_WITH_AES_256_CCM_8 : CipherSuite :=
  ⟨0xC0A9, some .psk, none, some .sha256, .aead .aes256ccm8, 12⟩
def TLS_PSK_DHE_WITH_AES_128_CCM_8 : CipherSuite :=
  ⟨0xC0AA, some .dhePsk, none, some .sha256, .aead .aes128ccm8, 12⟩
def TLS_PSK_DHE_WITH_AES_256_CCM_8 : CipherSuite :=
  ⟨0xC0AB, some .dhePsk, none, some .sha256, .aead .aes256ccm8, 12⟩

def values : List CipherSuite :=
  [TLS_NULL_WITH_NULL_NULL,
   TLS_RSA_WITH_NULL_MD5,
   TLS_RSA_WITH_NULL_SHA,
   TLS_RSA_WITH_NULL_SHA256,
   TLS_RSA_WITH_3DES_EDE_CBC_SHA,
   TLS_RSA_WITH_AES_128_CBC_SHA,
   TLS_RSA_WITH_AES_256_CBC_SHA,
   TLS_RSA_WITH_AES_128_CBC_SHA256,
   TLS_RSA_WITH_AES_256_CBC_SHA256,
   TLS_DH_DSS_WITH_3DES_EDE_CBC_SHA,
   TLS_DH_RSA_WITH_3DES_EDE_CBC_SHA,
   TLS_DHE_DSS_WITH_3DES_EDE_CBC_SHA,
   TLS_DHE_RSA_WITH_3DES_EDE_CBC_SHA,
   TLS_DH_DSS_WITH_AES_128_CBC_SHA,
   TLS_DH_RSA_WITH_AES_128_CBC_SHA,
   TLS_DHE_DSS_WITH_AES_128_CBC_SHA,
   TLS_DHE_RSA_WITH_AES_128_CBC_SHA,
   TLS_DH_DSS_WITH_AES_256_CBC_SHA,
   TLS_DH_RSA_WITH_AES_256_CBC_SHA,
   TLS_DHE_DSS_WITH_AES_256_CBC_SHA,
   TLS_DHE_RSA_WITH_AES_256_CBC_SHA,
   TLS_DH_DSS_WITH_AES_128_CBC_SHA256,
   TLS_DH_RSA_WITH_AES_128_CBC_SHA256,
   TLS_DHE_DSS_WITH_AES_128_CBC_SHA256,
   TLS_DHE_RSA_WITH_AES_128_CBC_SHA256,
   TLS_DH_DSS_WITH_AES_256_CBC_SHA256,
   TLS_DH_RSA_WITH_AES_256_CBC_SHA256,
   TLS_DHE_DSS_WITH_AES_256_CBC_SHA256,
   TLS_DHE_RSA_WITH_AES_256_CBC_SHA256,
   TLS_PSK_WITH_3DES_EDE_CBC_SHA,
   TLS_PSK_WITH_AES_128_CBC_SHA,
   TLS_PSK_WITH_AES_256_CBC_SHA,
   TLS_DHE_PSK_WITH_3DES_EDE_CBC_SHA,
   TLS_DHE_PSK_WITH_AES_128_CBC_SHA,
   TLS_DHE_PSK_WITH_AES_256_CBC_SHA,
   TLS_RSA_PSK_WITH_3DES_EDE_CBC_SHA,
   TLS_RSA_PSK_WITH_AES_128_CBC_SHA,
   TLS_RSA_PSK_WITH_AES_256_CBC_SHA,
   TLS_PSK_WITH_AES_128_CBC_SHA256,
   TLS_PSK_WITH_AES_256_CBC_SHA384,
   TLS_DHE_PSK_WITH_AES_128_CBC_SHA256,
   TLS_DHE_PSK_WITH_AES_256_CBC_SHA384,
   TLS_RSA_PSK_WITH_AES_128_CBC_SHA256,
   TLS_RSA_PSK_WITH_AES_256_CBC_SHA384,
   TLS_PSK_WITH_AES_128_GCM_SHA256,
   TLS_PSK_WITH_AES_256_GCM_SHA384,
   TLS_PSK_WITH_AES_128_CCM,
   TLS_PSK_WITH_AES_256_CCM,
   TLS_DHE_PSK_WITH_AES_128_CCM,
   TLS_DHE_PSK_WITH_AES_256_CCM,
   TLS_PSK_WITH_AES_128_CCM_8,
   TLS_PSK_WITH_AES_256_CCM_8,
   TLS_PSK_DHE_WITH_AES_128_CCM_8,
   TLS_PSK_DHE_WITH_AES_256_CCM_8]

/-- `CipherSuites[id]`, an index accessor; `undefined` where no suite has this identifier.  `NaN` is
no identifier. -/
def byId (id : Num) : Option CipherSuite :=
  values.find? fun suite => id = some (suite.id : Int)

-- The suites with a pre-shared key exchange all encrypt, and all name the hash of their PRF.
theorem psk_values {suite : CipherSuite} (hmem : suite ∈ values)
    (hpsk : suite.keyExchange = some .psk) :
    suite.cipherType ≠ .null ∧ suite.prfAlgorithm.isSome := by
  have hall : ∀ s ∈ values, s.keyExchange = some .psk →
      s.cipherType ≠ .null ∧ s.prfAlgorithm.isSome := by decide
  exact hall suite hmem hpsk

theorem byId_mem {id : Num} {suite : CipherSuite} (h : byId id = some suite) : suite ∈ values :=
  List.mem_of_find?_eq_some h

end DtlsClient.CipherSuites

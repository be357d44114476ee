import HomeAuto.CStrings

/-!
# Outgoing MQTT packets (`mqtt_client.c`)

The byte sequences the client builds in its transmit buffer.  Length computations are
16 bits wide as in the source; the buffer itself is an unbounded list, so whether a
packet fits it is a statement about the length.
-/

namespace HomeAuto

/-- `MQTT_KEEPALIVE_S`, `MQTT_RECONNECT_MS`, `MQTT_TXBUF_SIZE`. -/
def mqttKeepaliveS : Nat := 60
def mqttReconnectMs : Nat := 5000
def mqttTxbufSize : Nat := 768

/-- The longest string `MQTT_HOST_LEN` and `MQTT_STR_LEN` leave room for. -/
def mqttStrMax : Nat := 63

/-- The loop of `MQTTEncodeLen`; a 32-bit length has at most five groups. -/
def mqttEncodeLenLoop : Nat → Nat → List UInt8
  | 0, _ => []
  | n + 1, len =>
      if len >>> 7 = 0 then [UInt8.ofNat (len &&& 0x7F)]
      else (UInt8.ofNat (len &&& 0x7F) ||| 0x80) :: mqttEncodeLenLoop n (len >>> 7)

/-- `MQTTEncodeLen`. -/
def mqttEncodeLen (len : Nat) : List UInt8 := mqttEncodeLenLoop 5 len

/-- `MQTTPutStr`: a 16-bit length and the string. -/
def mqttPutStr (s : CStr) : List UInt8 :=
  UInt8.ofNat ((s.length % 65536) >>> 8) :: UInt8.ofNat (s.length &&& 0xFF) ::
    s.take (s.length % 65536)

/-- The last will of the client. -/
structure MqttWill where
  topic : CStr
  msg : CStr
  retain : UInt8

/-- The variable part of CONNECT that `MQTTSendConnect` assembles. -/
def mqttConnectVar (clientID user pass : CStr) (will : Option MqttWill) : List UInt8 :=
  let flags : UInt8 :=
    0x02 |||
    (match will with
      | some w => 0x04 ||| (if w.retain = 0 then 0 else 0x20)
      | none => 0) |||
    (if user = [] then 0 else 0x80 ||| (if pass = [] then 0 else 0x40))
  mqttPutStr (ascii "MQTT") ++
    [0x04, flags, UInt8.ofNat (mqttKeepaliveS >>> 8), UInt8.ofNat (mqttKeepaliveS &&& 0xFF)] ++
    mqttPutStr clientID ++
    (match will with
      | some w => mqttPutStr w.topic ++ mqttPutStr w.msg
      | none => []) ++
    (if user = [] then []
      else mqttPutStr user ++ (if pass = [] then [] else mqttPutStr pass))

/-- The CONNECT packet. -/
def mqttConnectPacket (clientID user pass : CStr) (will : Option MqttWill) : List UInt8 :=
  0x10 :: (mqttEncodeLen (mqttConnectVar clientID user pass will).length ++
    mqttConnectVar clientID user pass will)

/-- `ui16Rem` of a PUBLISH, and of a SUBSCRIBE. -/
def mqttPublishRem (topic : CStr) (payload : List UInt8) : Nat :=
  (2 + topic.length % 65536 + payload.length) % 65536
def mqttSubscribeRem (topic : CStr) : Nat := (2 + 2 + topic.length % 65536 + 1) % 65536

/-- The PUBLISH packet, `ui16Pos` bytes of it. -/
def mqttPublishPacket (topic : CStr) (payload : List UInt8) (retain : UInt8) : List UInt8 :=
  let whole : List UInt8 := (if retain = 0 then 0x30 else 0x31) ::
    (mqttEncodeLen (mqttPublishRem topic payload) ++ mqttPutStr topic ++ payload)
  whole.take (whole.length % 65536)

/-- The SUBSCRIBE packet, `ui16Pos` bytes of it. -/
def mqttSubscribePacket (packetID : BitVec 16) (topic : CStr) : List UInt8 :=
  let whole : List UInt8 := 0x82 ::
    (mqttEncodeLen (mqttSubscribeRem topic) ++
      [UInt8.ofNat (packetID.toNat >>> 8), UInt8.ofNat (packetID.toNat &&& 0xFF)] ++
      mqttPutStr topic ++ [0x00])
  whole.take (whole.length % 65536)

/-- The PINGREQ packet. -/
def mqttPingPacket : List UInt8 := [0xC0, 0x00]

end HomeAuto

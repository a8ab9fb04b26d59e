import TestGear.Xdr.Fields
import TestGear.Vxi11.Rpc

/-!
# TestGear.Vxi11.Messages

The structures of the VXI-11 channels, each by its layout: the order of the
fields differs from one to the next, and two of them differ in nothing else.
`Layout.decode_encode` and `Layout.decode_cut` hold of every one of them.

* `DeviceWriteParms.decode_eq`, `DeviceReadParms.decode_eq` — the decoders the
  tracker is compared with are those of the layouts.
-/

namespace TestGear.Vxi11

open Xdr

/-- `Device_ErrorCode`. -/
inductive ErrorCode where
  | noError
  | syntaxError
  | deviceNotAccessible
  | invalidLinkIdentifier
  | parameterError
  | channelNotEstablished
  | operationNotSupported
  | outOfResources
  | deviceLockedByAnotherLink
  | noLockHeldByThisLink
  | ioTimeout
  | ioError
  | invalidAddress
  | abort
  | channelAlreadyEstablished
deriving DecidableEq, Repr

def ErrorCode.asU32 : ErrorCode → UInt32
  | noError => 0
  | syntaxError => 1
  | deviceNotAccessible => 3
  | invalidLinkIdentifier => 4
  | parameterError => 5
  | channelNotEstablished => 6
  | operationNotSupported => 8
  | outOfResources => 9
  | deviceLockedByAnotherLink => 11
  | noLockHeldByThisLink => 12
  | ioTimeout => 15
  | ioError => 17
  | invalidAddress => 21
  | abort => 23
  | channelAlreadyEstablished => 29

/-- The spec bounds an enable_srq handle. -/
def srqHandleMax : UInt32 := 40

/-- The cap on a create_link device name. -/
def deviceNameMax : UInt32 := 1024

/-- docmd payloads are small. -/
def docmdDataMax : UInt32 := 4096

open Rpc (DeviceWriteParms DeviceReadParms)

/-! ## Arguments -/

structure CreateLinkParms where
  clientId : Int32
  lockDevice : Bool
  lockTimeoutMs : UInt32
  device : List UInt8
deriving DecidableEq

def CreateLinkParms.layout : Layout CreateLinkParms where
  fields := [.i32, .bool, .u32, .opaqueBytes deviceNameMax]
  vals p := (p.clientId, p.lockDevice, p.lockTimeoutMs, p.device, ())
  ofVals := fun (clientId, lockDevice, lockTimeoutMs, device, ()) =>
    { clientId, lockDevice, lockTimeoutMs, device }
  ofVals_vals _ := rfl

/-- `maxData` is the link's negotiated maxRecvSize. -/
def deviceWriteLayout (maxData : UInt32) : Layout DeviceWriteParms where
  fields := [.i32, .u32, .u32, .u32, .opaqueBytes maxData]
  vals p := (p.lid, p.ioTimeoutMs, p.lockTimeoutMs, p.flags, p.data, ())
  ofVals := fun (lid, ioTimeoutMs, lockTimeoutMs, flags, data, ()) =>
    { lid, ioTimeoutMs, lockTimeoutMs, flags, data }
  ofVals_vals _ := rfl

def deviceReadLayout : Layout DeviceReadParms where
  fields := [.i32, .u32, .u32, .u32, .u32, .i32]
  vals p := (p.lid, p.requestSize, p.ioTimeoutMs, p.lockTimeoutMs, p.flags, p.termChar, ())
  ofVals := fun (lid, requestSize, ioTimeoutMs, lockTimeoutMs, flags, termChar, ()) =>
    { lid, requestSize, ioTimeoutMs, lockTimeoutMs, flags, termChar }
  ofVals_vals _ := rfl

/-- Of readstb, trigger, clear, remote, and local; the flags come first and the
two timeouts the other way round. -/
structure DeviceGenericParms where
  lid : Int32
  flags : UInt32
  lockTimeoutMs : UInt32
  ioTimeoutMs : UInt32
deriving DecidableEq

def DeviceGenericParms.layout : Layout DeviceGenericParms where
  fields := [.i32, .u32, .u32, .u32]
  vals p := (p.lid, p.flags, p.lockTimeoutMs, p.ioTimeoutMs, ())
  ofVals := fun (lid, flags, lockTimeoutMs, ioTimeoutMs, ()) =>
    { lid, flags, lockTimeoutMs, ioTimeoutMs }
  ofVals_vals _ := rfl

structure DeviceLockParms where
  lid : Int32
  flags : UInt32
  lockTimeoutMs : UInt32
deriving DecidableEq

def DeviceLockParms.layout : Layout DeviceLockParms where
  fields := [.i32, .u32, .u32]
  vals p := (p.lid, p.flags, p.lockTimeoutMs, ())
  ofVals := fun (lid, flags, lockTimeoutMs, ()) => { lid, flags, lockTimeoutMs }
  ofVals_vals _ := rfl

structure DeviceEnableSrqParms where
  lid : Int32
  enable : Bool
  handle : List UInt8
deriving DecidableEq

def DeviceEnableSrqParms.layout : Layout DeviceEnableSrqParms where
  fields := [.i32, .bool, .opaqueBytes srqHandleMax]
  vals p := (p.lid, p.enable, p.handle, ())
  ofVals := fun (lid, enable, handle, ()) => { lid, enable, handle }
  ofVals_vals _ := rfl

/-- The client's interrupt-channel endpoint. -/
structure DeviceRemoteFunc where
  hostAddr : UInt32
  hostPort : UInt16
  progNum : UInt32
  progVers : UInt32
  progFamily : UInt32
deriving DecidableEq

def DeviceRemoteFunc.layout : Layout DeviceRemoteFunc where
  fields := [.u32, .u16, .u32, .u32, .u32]
  vals p := (p.hostAddr, p.hostPort, p.progNum, p.progVers, p.progFamily, ())
  ofVals := fun (hostAddr, hostPort, progNum, progVers, progFamily, ()) =>
    { hostAddr, hostPort, progNum, progVers, progFamily }
  ofVals_vals _ := rfl

/-- The one argument of device_intr_srq. -/
structure DeviceSrqParms where
  handle : List UInt8
deriving DecidableEq

def DeviceSrqParms.layout : Layout DeviceSrqParms where
  fields := [.opaqueBytes srqHandleMax]
  vals p := (p.handle, ())
  ofVals := fun (handle, ()) => { handle }
  ofVals_vals _ := rfl

structure DeviceDocmdParms where
  lid : Int32
  flags : UInt32
  ioTimeoutMs : UInt32
  lockTimeoutMs : UInt32
  cmd : Int32
  networkOrder : Bool
  datasize : Int32
  dataIn : List UInt8
deriving DecidableEq

def DeviceDocmdParms.layout : Layout DeviceDocmdParms where
  fields := [.i32, .u32, .u32, .u32, .i32, .bool, .i32, .opaqueBytes docmdDataMax]
  vals p := (p.lid, p.flags, p.ioTimeoutMs, p.lockTimeoutMs, p.cmd, p.networkOrder, p.datasize,
    p.dataIn, ())
  ofVals := fun (lid, flags, ioTimeoutMs, lockTimeoutMs, cmd, networkOrder, datasize, dataIn, ()) =>
    { lid, flags, ioTimeoutMs, lockTimeoutMs, cmd, networkOrder, datasize, dataIn }
  ofVals_vals _ := rfl

/-- The lone link identifier of unlock, destroy_link and abort. -/
def lidLayout : Layout Int32 where
  fields := [.i32]
  vals lid := (lid, ())
  ofVals := fun (lid, ()) => lid
  ofVals_vals _ := rfl

/-- Of destroy_intr_chan, which has no arguments. -/
def noneLayout : Layout Unit where
  fields := []
  vals _ := ()
  ofVals _ := ()
  ofVals_vals _ := rfl

/-! ## Results -/

structure CreateLinkResp where
  error : UInt32
  lid : Int32
  abortPort : UInt16
  maxRecvSize : UInt32
deriving DecidableEq

def CreateLinkResp.layout : Layout CreateLinkResp where
  fields := [.u32, .i32, .u16, .u32]
  vals r := (r.error, r.lid, r.abortPort, r.maxRecvSize, ())
  ofVals := fun (error, lid, abortPort, maxRecvSize, ()) => { error, lid, abortPort, maxRecvSize }
  ofVals_vals _ := rfl

structure DeviceWriteResp where
  error : UInt32
  size : UInt32
deriving DecidableEq

def DeviceWriteResp.layout : Layout DeviceWriteResp where
  fields := [.u32, .u32]
  vals r := (r.error, r.size, ())
  ofVals := fun (error, size, ()) => { error, size }
  ofVals_vals _ := rfl

structure DeviceReadResp where
  error : UInt32
  reason : UInt32
  data : List UInt8
deriving DecidableEq

def DeviceReadResp.layout (maxData : UInt32) : Layout DeviceReadResp where
  fields := [.u32, .u32, .opaqueBytes maxData]
  vals r := (r.error, r.reason, r.data, ())
  ofVals := fun (error, reason, data, ()) => { error, reason, data }
  ofVals_vals _ := rfl

structure DeviceReadStbResp where
  error : UInt32
  stb : UInt8
deriving DecidableEq

def DeviceReadStbResp.layout : Layout DeviceReadStbResp where
  fields := [.u32, .u8]
  vals r := (r.error, r.stb, ())
  ofVals := fun (error, stb, ()) => { error, stb }
  ofVals_vals _ := rfl

structure DeviceDocmdResp where
  error : UInt32
  dataOut : List UInt8
deriving DecidableEq

def DeviceDocmdResp.layout : Layout DeviceDocmdResp where
  fields := [.u32, .opaqueBytes docmdDataMax]
  vals r := (r.error, r.dataOut, ())
  ofVals := fun (error, dataOut, ()) => { error, dataOut }
  ofVals_vals _ := rfl

/-- The whole response of trigger, clear, remote, local, lock, unlock,
enable_srq, destroy_link, and the intr_chan pair. -/
def deviceErrorLayout : Layout UInt32 where
  fields := [.u32]
  vals error := (error, ())
  ofVals := fun (error, ()) => error
  ofVals_vals _ := rfl

/-! ## Decoders and layouts -/

/-- The decoder of a device_write is that of its layout. -/
theorem DeviceWriteParms.decode_eq (data : List UInt8) (maxData : UInt32) :
    (deviceWriteLayout maxData).decode data =
      (Rpc.DeviceWriteParms.decode data maxData).mapError .xdr := by
  simp only [Rpc.DeviceWriteParms.decode, mapError_bind, Layout.decode, Layout.read,
    Reader.andThen, deviceWriteLayout, getFields, Field.get, exceptMap_bind, bind_assoc]
  rfl

theorem DeviceReadParms.decode_eq (data : List UInt8) :
    deviceReadLayout.decode data = (Rpc.DeviceReadParms.decode data).mapError .xdr := by
  simp only [Rpc.DeviceReadParms.decode, mapError_bind, Layout.decode, Layout.read,
    Reader.andThen, deviceReadLayout, getFields, Field.get, exceptMap_bind, bind_assoc]
  rfl

end TestGear.Vxi11

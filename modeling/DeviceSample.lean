import DeviceSample.BaseRun
import DeviceSample.Sdk
import DeviceSample.BaseBlocks
import DeviceSample.BaseMemory
import DeviceSample.BaseEncoding
import DeviceSample.SasBase64
import DeviceSample.ShaTransform
import DeviceSample.ShaStream
import DeviceSample.ShaHmac
import DeviceSample.SasToken
import DeviceSample.AppLedReport
import DeviceSample.AppState
import DeviceSample.AppActions
import DeviceSample.AppLoop
import DeviceSample.AppTypestate
import DeviceSample.AppRecover
import DeviceSample.AppMessages
import DeviceSample.SasAgree
import DeviceSample.SasBounds
import DeviceSample.BaseJson
import DeviceSample.JsonUtils
import DeviceSample.MqttStruct
import DeviceSample.DpsMqtt
import DeviceSample.MqttIdentity
import DeviceSample.DpsRegister
import DeviceSample.BaseReader
import DeviceSample.TwinWalker
import DeviceSample.TwinDelivery
import DeviceSample.BaseProtocol
import DeviceSample.NxCreate
import DeviceSample.BasePrint
import DeviceSample.MqttConnect
import DeviceSample.MqttDirect
import DeviceSample.MxLed
import DeviceSample.NxEvents
import DeviceSample.SntpThread
import DeviceSample.JsonRoles
import DeviceSample.Publish
import DeviceSample.BaseNumber
import DeviceSample.PublishFloat
import DeviceSample.TwinAgree
import DeviceSample.BaseSearch
import DeviceSample.MqttNotify
import DeviceSample.MqttReceive
import DeviceSample.MqttTopics
import DeviceSample.MqttCallbacks
import DeviceSample.BaseBytes
import DeviceSample.SasDecode
import DeviceSample.ShaMemory
import DeviceSample.SasKey
import DeviceSample.DpsRetry
import DeviceSample.LedCommand
import DeviceSample.NxPackets
import DeviceSample.NxIdentity
import DeviceSample.BaseLifecycle
import DeviceSample.NetworkInit
import DeviceSample.AppBackoff
import DeviceSample.MqttStart
import DeviceSample.SntpClock
import DeviceSample.VtTick
import DeviceSample.MqttVersions
import DeviceSample.MqttProperties
import DeviceSample.BaseWriter
import DeviceSample.TwinReport
import DeviceSample.TwinMarkers
import DeviceSample.TwinSilence
import DeviceSample.BaseWindow
import DeviceSample.ShaStandard
import DeviceSample.BaseLinked
import DeviceSample.NetxPool
import DeviceSample.NetxOwned
import DeviceSample.NetxAppend
import DeviceSample.NetxData
import DeviceSample.NetxCopy
import DeviceSample.NetxCreate
import DeviceSample.NetxRuns
import DeviceSample.WifiSocket
import DeviceSample.WifiQueue
import DeviceSample.WifiTable
import DeviceSample.WifiThread
import DeviceSample.WifiRuns
import DeviceSample.BaseBits
import DeviceSample.ShaDigest
import DeviceSample.BaseRing
import DeviceSample.NetxSockets
import DeviceSample.NetxPorts
import DeviceSample.NetxSocketRuns
import DeviceSample.EsWifiAnswer
import DeviceSample.EsWifiCalls
import DeviceSample.EsWifiRuns
import DeviceSample.EsWifiSockets
import DeviceSample.EsWifiMachine

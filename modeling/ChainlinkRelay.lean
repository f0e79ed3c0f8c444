import ChainlinkRelay.Logger
import ChainlinkRelay.LoggerInterface
import ChainlinkRelay.HcLog
import ChainlinkRelay.OnceValue
import ChainlinkRelay.HcLogConcurrent
import ChainlinkRelay.HcLogInterface
import ChainlinkRelay.BigBigEndian
import ChainlinkRelay.OnchainConfig
import ChainlinkRelay.Broker
import ChainlinkRelay.MedianFactory
import ChainlinkRelay.Interleaving
import ChainlinkRelay.MedianWire
import ChainlinkRelay.MedianCodecs
